/-
**The network of one address.**

A text that Go reads as an address becomes, with the full number of bits after a slash, a network with that
address alone.

* `isAddress` — the characters of an address; `parseAddr_eq_some` — what an address and its text look like.
* `hostCIDR` — the text of the network; `parseCIDR_hostCIDR` — how it is read.
* `contains_host_iff` — what is in it.
-/

import Ttgo.Lib.GoNet

namespace Ttgo.Lib

/-! ### The text of an address -/

def isAddress (c : Char) : Bool := (hexValue c).isSome ∨ c = '.' ∨ c = ':'

theorem isAddress_of_hexValue {c : Char} (digit : (hexValue c).isSome) : isAddress c :=
  decide_eq_true (.inl digit)

theorem hexValue_of_isDigit {c : Char} (digit : c.isDigit) : (hexValue c).isSome := by
  rw [hexValue, if_pos]
  · rfl
  · simpa [Char.isDigit, Char.le_def] using digit

theorem all_of_parseOctet {field : Text} {octet : UInt8} (parsed : parseOctet field = some octet) :
    field.all isAddress := by
  obtain ⟨⟨-, digits, -⟩, -⟩ := Option.ite_none_right_eq_some.mp parsed
  rw [List.all_eq_true] at digits ⊢
  intro c member
  exact isAddress_of_hexValue (hexValue_of_isDigit (digits c member))

theorem parseIPv4_eq_some {text : Text} {ip : IP} (parsed : parseIPv4 text = some ip) :
    text.all isAddress ∧ ip.length = 4 := by
  have joined : ['.'].intercalate (text.splitOn '.') = text := List.intercalate_splitOn '.'
  have dot : isAddress '.' = true := by decide
  unfold parseIPv4 at parsed
  split at parsed
  · next a b c d fields =>
    simp only [Option.bind_eq_bind, Option.bind_eq_some_iff, Option.pure_def, Option.some.injEq] at parsed
    obtain ⟨a', first, b', second, c', third, d', fourth, rfl⟩ := parsed
    refine ⟨?_, rfl⟩
    have written : a ++ '.' :: (b ++ '.' :: (c ++ '.' :: d)) = text := by
      rw [fields] at joined
      rw [← joined]
      simp [List.intercalate, List.intersperse]
    simp only [← written, List.all_append, List.all_cons, dot, all_of_parseOctet first, all_of_parseOctet second,
      all_of_parseOctet third, all_of_parseOctet fourth, Bool.and_self]
  · cases parsed

theorem all_of_parseGroups {room : Nat} {text : Text} {bytes : IP} {ellipsis : Option Nat}
    {read : IP × Option Nat} (parsed : parseGroups room text bytes ellipsis = some read) : text.all isAddress := by
  have colon : isAddress ':' = true := by decide
  induction room generalizing text bytes ellipsis with
  | zero =>
    unfold parseGroups at parsed
    obtain ⟨rfl, -⟩ := Option.ite_none_right_eq_some.mp parsed
    rfl
  | succ room ih =>
    have digits : (text.takeWhile fun c => (hexValue c).isSome).all isAddress := by
      rw [List.all_eq_true]
      intro c member
      have digit : (hexValue c).isSome = true := List.mem_takeWhile_imp (p := fun c => (hexValue c).isSome) member
      exact isAddress_of_hexValue digit
    have cut : (text.takeWhile fun c => (hexValue c).isSome) ++
        text.drop (text.takeWhile fun c => (hexValue c).isSome).length = text :=
      (List.prefix_iff_eq_append.mp ( List.takeWhile_prefix _))
    -- the digits of a group are characters of an address, and so are those of the text after them
    have after : (text.drop (text.takeWhile fun c => (hexValue c).isSome).length).all isAddress →
        text.all isAddress := by
      intro rest
      rw [← cut, List.all_append, digits, rest]
      rfl
    simp only [parseGroups] at parsed
    obtain ⟨-, parsed⟩ := Option.ite_none_left_eq_some.mp parsed
    split at parsed
    · next ended =>
      refine after ?_
      rw [ended]
      rfl
    · obtain ⟨-, parsed⟩ := Option.ite_none_left_eq_some.mp parsed
      obtain ⟨last, four, -⟩ := Option.map_eq_some_iff.mp parsed
      exact (parseIPv4_eq_some four).1
    · cases parsed
    · next ended =>
      refine after ?_
      rw [ended]
      decide
    · next rest ended =>
      obtain ⟨-, parsed⟩ := Option.ite_none_left_eq_some.mp parsed
      refine after ?_
      rw [ended, List.all_cons, List.all_cons, colon, ih parsed]
      rfl
    · next rest _ _ ended =>
      refine after ?_
      rw [ended, List.all_cons, colon, ih parsed]
      rfl
    · cases parsed

theorem parseIPv6_eq_some {text : Text} {ip : IP} (parsed : parseIPv6 text = some ip) :
    text.all isAddress ∧ ip.length = 16 := by
  have expanded : ∀ {read : IP × Option Nat}, expandEllipsis read = some ip → ip.length = 16 := by
    rintro ⟨bytes, ellipsis⟩ expands
    cases ellipsis with
    | none =>
      obtain ⟨full, same⟩ := Option.ite_none_right_eq_some.mp expands
      cases same
      exact full
    | some place =>
      obtain ⟨short, same⟩ := Option.ite_none_right_eq_some.mp expands
      cases same
      simp only [List.length_append, List.length_take, List.length_replicate, List.length_drop]
      omega
  unfold parseIPv6 at parsed
  split at parsed
  · cases parsed
    exact ⟨by decide, List.length_replicate⟩
  · obtain ⟨read, groups, expands⟩ := Option.bind_eq_some_iff.mp parsed
    refine ⟨?_, expanded expands⟩
    rw [List.all_cons, List.all_cons, all_of_parseGroups groups]
    decide
  · obtain ⟨read, groups, expands⟩ := Option.bind_eq_some_iff.mp parsed
    exact ⟨all_of_parseGroups groups, expanded expands⟩

/-- **A text that is read as an address**: its characters are those of an address, which has four or sixteen bytes. -/
theorem parseAddr_eq_some {text : Text} {addr : IP} (parsed : parseAddr text = some addr) :
    text.all isAddress ∧ (addr.length = 4 ∨ addr.length = 16) := by
  unfold parseAddr at parsed
  split at parsed
  · exact (parseIPv4_eq_some parsed).imp_right .inl
  · obtain ⟨-, parsed⟩ := Option.ite_none_left_eq_some.mp parsed
    exact (parseIPv6_eq_some parsed).imp_right .inr
  · cases parsed

theorem slash_notMem_of_parseAddr {text : Text} {addr : IP} (parsed : parseAddr text = some addr) : '/' ∉ text := by
  intro slash
  exact absurd (List.all_eq_true.mp (parseAddr_eq_some parsed).1 '/' slash) (by decide)

theorem length_of_to16 {addr ip : IP} (wide : to16 addr = some ip) : ip.length = 16 := by
  unfold to16 at wide
  split at wide
  · next four =>
    cases wide
    rw [List.length_append, four]
    rfl
  · obtain ⟨sixteen, same⟩ := Option.ite_none_right_eq_some.mp wide
    cases same
    exact sixteen

/-! ### The network -/

def hostCIDR (text : Text) (addr : IP) : Text := text ++ '/' :: if addr.length = 4 then ['3', '2'] else ['1', '2', '8']

theorem maskBytes_ones (bytes : List UInt8) (count : Nat) :
    maskBytes bytes (List.replicate count 255) = bytes.take count := by
  have ones : ∀ byte : UInt8, byte &&& 255 = byte := fun byte => UInt8.and_neg_one
  induction count generalizing bytes with
  | zero => simp [maskBytes]
  | succ count ih =>
    cases bytes with
    | nil => rfl
    | cons byte bytes =>
      have rest := ih bytes
      unfold maskBytes at rest ⊢
      rw [List.replicate_succ, List.zipWith_cons_cons, rest, ones, List.take_succ_cons]

theorem parseCIDR_hostCIDR {text : Text} {addr : IP} (parsed : parseAddr text = some addr) :
    parseCIDR (hostCIDR text addr) = some ⟨addr, List.replicate addr.length 255⟩ := by
  obtain ⟨-, length⟩ := parseAddr_eq_some parsed
  have clean := slash_notMem_of_parseAddr parsed
  have other : ∀ c ∈ text, decide (c ≠ '/') = true := fun c member =>
    decide_eq_true fun same => clean (same ▸ member)
  unfold parseCIDR hostCIDR
  rw [List.dropWhile_append_of_pos other, List.takeWhile_append_of_pos other]
  rcases length with four | sixteen
  · have mask : cidrMask 32 4 = List.replicate 4 255 := by decide
    have bits : decimal ['3', '2'] = 32 := by decide
    have masked : maskBytes addr (cidrMask 32 4) = addr := by
      rw [mask, maskBytes_ones, List.take_of_length_le four.le]
    simpa [parsed, four, bits, masked] using mask
  · have mask : cidrMask 128 16 = List.replicate 16 255 := by decide
    have bits : decimal ['1', '2', '8'] = 128 := by decide
    have masked : maskBytes addr (cidrMask 128 16) = addr := by
      rw [mask, maskBytes_ones, List.take_of_length_le sixteen.le]
    simpa [parsed, sixteen, bits, masked] using mask

theorem to4_of_length {ip : IP} (sixteen : ip.length = 16) :
    to4 ip = if ip.take 12 = v4InV6Prefix then some (ip.drop 12) else none := by
  simp [to4, sixteen]

theorem narrow_eq_iff {number ip : IP} (four : number.length = 4) (wide : ip = [] ∨ ip.length = 16) :
    (to4 ip).getD ip = number ↔ v4InV6Prefix ++ number = ip := by
  have twelve : v4InV6Prefix.length = 12 := rfl
  rcases wide with rfl | sixteen
  · constructor
    · rintro rfl
      cases four
    · intro impossible
      exact absurd (congrArg List.length impossible) (by simp [twelve])
  · rw [to4_of_length sixteen]
    split
    · next mapped =>
      rw [Option.getD_some, ← mapped]
      constructor
      · rintro rfl
        exact List.take_append_drop 12 ip
      · intro same
        conv_lhs => rw [← same]
        rw [mapped]
        exact List.drop_left' twelve
    · next other =>
      constructor
      · rintro rfl
        rw [Option.getD_none, sixteen] at four
        cases four
      · rintro rfl
        exact absurd (List.take_left' twelve) other

/-- **The one address of the network**, among those that `net.ParseIP` gives. -/
theorem contains_host_iff {addr ip : IP} (length : addr.length = 4 ∨ addr.length = 16)
    (wide : ip = [] ∨ ip.length = 16) :
    IPNet.contains ⟨addr, List.replicate addr.length 255⟩ ip = true ↔ to16 addr = some ip := by
  -- under a mask of ones, what is compared are the addresses themselves
  have compared : ∀ {number : IP},
      (((to4 ip).getD ip).length = number.length && maskBytes number (List.replicate number.length 255) =
        maskBytes ((to4 ip).getD ip) (List.replicate number.length 255)) = true ↔
      (to4 ip).getD ip = number := by
    intro number
    rw [Bool.and_eq_true, decide_eq_true_iff, decide_eq_true_iff, maskBytes_ones, maskBytes_ones, List.take_length]
    constructor
    · rintro ⟨same, equal⟩
      rw [equal, ← same, List.take_length]
    · rintro rfl
      exact ⟨rfl, (List.take_length).symm⟩
  rcases length with four | sixteen
  · have narrow : to4 addr = some addr := if_pos four
    have widened : to16 addr = some (v4InV6Prefix ++ addr) := if_pos four
    rw [widened, Option.some.injEq, ← narrow_eq_iff four wide, ← compared]
    simp [IPNet.contains, IPNet.numberAndMask, narrow, four]
  · have same : to16 addr = some addr := by simp [to16, sixteen]
    rw [same, Option.some.injEq]
    by_cases mapped : addr.take 12 = v4InV6Prefix
    · have four : (addr.drop 12).length = 4 := by rw [List.length_drop, sixteen]
      have narrow : to4 addr = some (addr.drop 12) := by rw [to4_of_length sixteen, if_pos mapped]
      have joined : v4InV6Prefix ++ addr.drop 12 = addr := by rw [← mapped, List.take_append_drop]
      conv_rhs => rw [← joined, ← narrow_eq_iff four wide, ← compared]
      simp [IPNet.contains, IPNet.numberAndMask, narrow, sixteen, four]
    · have unmapped : to4 addr = none := by rw [to4_of_length sixteen, if_neg mapped]
      have whole : (to4 ip).getD ip = addr ↔ addr = ip := by
        rcases wide with rfl | sixteen'
        · exact eq_comm
        · rw [to4_of_length sixteen']
          split
          · next mapped' =>
            constructor
            · rintro rfl
              simp [sixteen'] at sixteen
            · rintro rfl
              exact absurd mapped' mapped
          · exact eq_comm
      rw [← whole, ← compared]
      simp [IPNet.contains, IPNet.numberAndMask, unmapped, sixteen]

end Ttgo.Lib
