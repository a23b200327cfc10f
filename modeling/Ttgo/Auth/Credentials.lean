/-
**The header that a client sends.**

`NewDialer` of `internal/client/dialer.go` joins the username and the password with a colon and encodes the bytes
with `base64.StdEncoding`. `CheckExt` decodes them, and splits at the first colon.

* `base64Encode` — `StdEncoding.EncodeToString`; `base64Decode_encode` — the bytes come back.
* `colon_mem_of_byte` — in UTF-8, the byte of the colon is only ever a colon.
* `authBasic` — the header; `parseBasic_authBasic` — what comes back for a username without a colon.
-/

import Ttgo.Auth.Authenticator

namespace Ttgo.Auth

/-! ### Encoding -/

def base64Alphabet : List Char :=
  "ABCDEFGHIJKLMNOPQRSTUVWXYZabcdefghijklmnopqrstuvwxyz0123456789+/".toList

def base64Symbol (value : Nat) : Char := base64Alphabet.getD value '='

/-- `base64.StdEncoding.EncodeToString`: three bytes are four symbols, and the last quantum is padded. -/
def base64Encode : List UInt8 → List Char
  | [] => []
  | [a] => [base64Symbol (a.toNat / 4), base64Symbol (a.toNat % 4 * 16), '=', '=']
  | [a, b] =>
    [base64Symbol (a.toNat / 4), base64Symbol (a.toNat % 4 * 16 + b.toNat / 16),
      base64Symbol (b.toNat % 16 * 4), '=']
  | a :: b :: c :: rest =>
    base64Symbol (a.toNat / 4) :: base64Symbol (a.toNat % 4 * 16 + b.toNat / 16) ::
      base64Symbol (b.toNat % 16 * 4 + c.toNat / 64) :: base64Symbol (c.toNat % 64) :: base64Encode rest

theorem base64Symbol_spec {value : Nat} (small : value < 64) :
    base64Value (base64Symbol value) = some value ∧ base64Symbol value ≠ '=' ∧
      base64Symbol value ≠ '\r' ∧ base64Symbol value ≠ '\n' := by
  have all : ∀ v : Fin 64, base64Value (base64Symbol v) = some v.val ∧ base64Symbol v ≠ '=' ∧
      base64Symbol v ≠ '\r' ∧ base64Symbol v ≠ '\n' := by decide +kernel
  exact all ⟨value, small⟩

theorem base64Value_symbol {value : Nat} (small : value < 64) :
    base64Value (base64Symbol value) = some value := (base64Symbol_spec small).1

theorem base64Quanta_cons {a b c d : Nat} (smallA : a < 64) (smallB : b < 64) (smallC : c < 64)
    (smallD : d < 64) (rest : List Char) :
    base64Quanta (base64Symbol a :: base64Symbol b :: base64Symbol c :: base64Symbol d :: rest) =
      (base64Quanta rest).map fun bytes => UInt8.ofNat (a * 4 + b / 16) ::
        UInt8.ofNat (b % 16 * 16 + c / 4) :: UInt8.ofNat (c % 4 * 64 + d) :: bytes := by
  have unpadded := (base64Symbol_spec smallD).2.1
  rw [base64Quanta.eq_4 _ _ _ _ _ (fun _ padding _ => unpadded padding) fun padding _ => unpadded padding]
  simp only [base64Value_symbol smallA, base64Value_symbol smallB, base64Value_symbol smallC,
    base64Value_symbol smallD, Option.bind_eq_bind, Option.bind_some, Option.pure_def, Option.map_eq_bind]
  rfl

theorem base64Quanta_encode (bytes : List UInt8) : base64Quanta (base64Encode bytes) = some bytes := by
  induction bytes using base64Encode.induct with
  | case1 => rfl
  | case2 a =>
    have bound := a.toNat_lt
    simp only [base64Encode, base64Quanta, base64Value_symbol (show a.toNat / 4 < 64 by omega),
      base64Value_symbol (show a.toNat % 4 * 16 < 64 by omega), Option.bind_eq_bind, Option.bind_some,
      Option.pure_def, Option.some.injEq, List.cons.injEq, and_true]
    rw [show a.toNat / 4 * 4 + a.toNat % 4 * 16 / 16 = a.toNat by omega, UInt8.ofNat_toNat]
  | case3 a b =>
    have boundA := a.toNat_lt
    have boundB := b.toNat_lt
    have padded := (base64Symbol_spec (show b.toNat % 16 * 4 < 64 by omega)).2.1
    rw [base64Encode, base64Quanta.eq_3 _ _ _ fun padding => padded padding]
    simp only [base64Value_symbol (show a.toNat / 4 < 64 by omega),
      base64Value_symbol (show a.toNat % 4 * 16 + b.toNat / 16 < 64 by omega),
      base64Value_symbol (show b.toNat % 16 * 4 < 64 by omega), Option.bind_eq_bind, Option.bind_some,
      Option.pure_def, Option.some.injEq, List.cons.injEq, and_true]
    rw [show a.toNat / 4 * 4 + (a.toNat % 4 * 16 + b.toNat / 16) / 16 = a.toNat by omega,
      show (a.toNat % 4 * 16 + b.toNat / 16) % 16 * 16 + b.toNat % 16 * 4 / 4 = b.toNat by omega,
      UInt8.ofNat_toNat, UInt8.ofNat_toNat]
    exact ⟨rfl, rfl⟩
  | case4 a b c rest ih =>
    have boundA := a.toNat_lt
    have boundB := b.toNat_lt
    have boundC := c.toNat_lt
    rw [base64Encode, base64Quanta_cons (by omega) (by omega) (by omega) (by omega), ih, Option.map_some,
      show a.toNat / 4 * 4 + (a.toNat % 4 * 16 + b.toNat / 16) / 16 = a.toNat by omega,
      show (a.toNat % 4 * 16 + b.toNat / 16) % 16 * 16 + (b.toNat % 16 * 4 + c.toNat / 64) / 4 = b.toNat by omega,
      show (b.toNat % 16 * 4 + c.toNat / 64) % 4 * 64 + c.toNat % 64 = c.toNat by omega,
      UInt8.ofNat_toNat, UInt8.ofNat_toNat, UInt8.ofNat_toNat]

theorem no_break_of_mem_encode {bytes : List UInt8} {symbol : Char} (member : symbol ∈ base64Encode bytes) :
    symbol ≠ '\r' ∧ symbol ≠ '\n' := by
  have plain : ∀ {value : Nat}, value < 64 → base64Symbol value ≠ '\r' ∧ base64Symbol value ≠ '\n' :=
    fun small => (base64Symbol_spec small).2.2
  induction bytes using base64Encode.induct with
  | case1 => cases member
  | case2 a =>
    have bound := a.toNat_lt
    simp only [base64Encode, List.mem_cons, List.not_mem_nil, or_false] at member
    rcases member with rfl | rfl | rfl | rfl
    · exact plain (by omega)
    · exact plain (by omega)
    · decide
    · decide
  | case3 a b =>
    have boundA := a.toNat_lt
    have boundB := b.toNat_lt
    simp only [base64Encode, List.mem_cons, List.not_mem_nil, or_false] at member
    rcases member with rfl | rfl | rfl | rfl
    · exact plain (by omega)
    · exact plain (by omega)
    · exact plain (by omega)
    · decide
  | case4 a b c rest ih =>
    have boundA := a.toNat_lt
    have boundB := b.toNat_lt
    have boundC := c.toNat_lt
    simp only [base64Encode, List.mem_cons] at member
    rcases member with rfl | rfl | rfl | rfl | later
    · exact plain (by omega)
    · exact plain (by omega)
    · exact plain (by omega)
    · exact plain (by omega)
    · exact ih later

theorem base64Decode_encode (bytes : List UInt8) : base64Decode (base64Encode bytes) = some bytes := by
  unfold base64Decode
  rw [List.filter_eq_self.mpr, base64Quanta_encode]
  intro symbol member
  exact decide_eq_true (no_break_of_mem_encode member)

/-! ### The colon -/

theorem eq_colon_of_byte {c : Char} (member : (58 : UInt8) ∈ String.utf8EncodeChar c) : c = ':' := by
  have byte : ∀ {n : Nat}, (58 : UInt8) = UInt8.ofNat n → n % 256 = 58 := fun same =>
    (congrArg UInt8.toNat same).symm
  unfold String.utf8EncodeChar at member
  dsimp only at member
  split at member
  · next ascii =>
    have value := byte (List.mem_singleton.mp member)
    exact Char.ext (UInt32.toNat_inj.mp (show c.val.toNat = 58 by omega))
  -- the bytes of the longer encodings are at least `0x80`
  · split at member
    · simp only [List.mem_cons, List.not_mem_nil, or_false] at member
      rcases member with same | same <;> (have small := byte same; omega)
    · split at member
      · simp only [List.mem_cons, List.not_mem_nil, or_false] at member
        rcases member with same | same | same <;> (have small := byte same; omega)
      · simp only [List.mem_cons, List.not_mem_nil, or_false] at member
        rcases member with same | same | same | same <;> (have small := byte same; omega)

theorem colon_mem_of_byte {text : String} (member : (58 : UInt8) ∈ bytesOf text) : ':' ∈ text.toList := by
  have bytes : bytesOf text = text.toList.flatMap String.utf8EncodeChar := by
    show text.toByteArray.data.toList = _
    rw [← String.utf8Encode_toList, List.utf8Encode, List.data_toByteArray]
  rw [bytes, List.mem_flatMap] at member
  obtain ⟨c, inside, byte⟩ := member
  rwa [← eq_colon_of_byte byte]

theorem splitColon_append {front : List UInt8} (clean : (58 : UInt8) ∉ front) (back : List UInt8) :
    splitColon (front ++ 58 :: back) = some (front, back) := by
  induction front with
  | nil => rfl
  | cons byte front ih =>
    rw [List.mem_cons, not_or] at clean
    rw [List.cons_append, splitColon, if_neg (Ne.symm clean.1), ih clean.2]
    rfl

/-! ### The header -/

/-- `authBasic` of `NewDialer`, and the header of `p2pConnect`. -/
def authBasic (username password : String) : String :=
  "Basic " ++ String.ofList (base64Encode (bytesOf (username ++ ":" ++ password)))

theorem fromUTF8_bytesOf (text : String) : String.fromUTF8? ⟨(bytesOf text).toArray⟩ = some text := by
  have same : (⟨(bytesOf text).toArray⟩ : ByteArray) = text.toByteArray := rfl
  rw [same, String.fromUTF8?, dif_pos text.isValidUTF8]
  rfl

/-- **What `CheckExt` makes of the header**: the credentials, where the username has no colon. -/
theorem parseBasic_authBasic {username : String} (clean : ':' ∉ username.toList) (password : String) :
    parseBasic (authBasic username password) = some (username, bytesOf password) := by
  have cut : (authBasic username password).toList.dropPrefix? "Basic ".toList =
      some (base64Encode (bytesOf (username ++ ":" ++ password))) := by
    rw [authBasic, String.toList_append, List.dropPrefix?_eq_some_iff]
    exact ⟨"Basic ".toList, congrArg _ String.toList_ofList, beq_self_eq_true _⟩
  have joined : bytesOf (username ++ ":" ++ password) = bytesOf username ++ 58 :: bytesOf password := by
    show (username ++ ":" ++ password).toByteArray.data.toList = _
    rw [String.toByteArray_append, String.toByteArray_append, ByteArray.data_append, ByteArray.data_append,
      Array.toList_append, Array.toList_append, List.append_assoc]
    rfl
  have split := splitColon_append (fun byte => clean (colon_mem_of_byte byte)) (bytesOf password)
  simp only [parseBasic, cut, base64Decode_encode, joined, split, fromUTF8_bytesOf, Option.bind_eq_bind,
    Option.bind_some, Option.pure_def]

theorem parseBasic_authBasic_iff (username password : String) :
    parseBasic (authBasic username password) = some (username, bytesOf password) ↔ ':' ∉ username.toList :=
  ⟨parseBasic_no_colon, fun clean => parseBasic_authBasic clean password⟩

end Ttgo.Auth
