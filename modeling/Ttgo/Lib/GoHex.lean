/-
**Go's `encoding/hex`.**

* `hexDecode` — `hex.DecodeString`, with its errors.
* `IsHex` — a text spells bytes, two digits each; `hexDecode_eq_ok_iff` — what decodes is what is spelled.
-/

import Ttgo.Lib.GoStrings

namespace Ttgo.Lib

/-- `%#U` of a byte: the code point, and the character where it is printable. -/
def unicodeOf (byte : UInt8) : Text :=
  let c := Char.ofNat byte.toNat
  "U+".toList ++ (hexDigits 4 byte.toNat).map Char.toUpper ++
    if isPrint (fun _ => false) c then " '".toList ++ [c, '\''] else []

/-- `hex.InvalidByteError`. Go reads bytes, so a character is named by its first one. -/
def invalidByteError (c : Char) : Text :=
  "encoding/hex: invalid byte: ".toList ++ unicodeOf ((String.utf8EncodeChar c).headD 0)

def errLength : Text := "encoding/hex: odd length hex string".toList

/-- `hex.DecodeString`: the first character that is no digit is an error before an odd length is. -/
def hexDecode : Text → Except Text (List UInt8)
  | [] => .ok []
  | [a] =>
    match hexValue a with
    | none => .error (invalidByteError a)
    | some _ => .error errLength
  | a :: b :: rest =>
    match hexValue a, hexValue b with
    | none, _ => .error (invalidByteError a)
    | some _, none => .error (invalidByteError b)
    | some high, some low => (hexDecode rest).map (UInt8.ofNat (high * 16 + low) :: ·)

/-- The text spells the bytes, two digits each. -/
inductive IsHex : Text → List UInt8 → Prop
  | nil : IsHex [] []
  | cons {a b : Char} {high low : Nat} {rest : Text} {bytes : List UInt8} (first : hexValue a = some high)
      (second : hexValue b = some low) (spelled : IsHex rest bytes) :
      IsHex (a :: b :: rest) (UInt8.ofNat (high * 16 + low) :: bytes)

theorem hexDecode_eq_ok_iff {text : Text} {bytes : List UInt8} :
    hexDecode text = .ok bytes ↔ IsHex text bytes := by
  constructor
  · intro decoded
    induction text using hexDecode.induct generalizing bytes with
    | case1 =>
      cases decoded
      exact .nil
    | case2 a invalid => simp [hexDecode, invalid] at decoded
    | case3 a high valid => simp [hexDecode, valid] at decoded
    | case4 a b rest invalid => simp [hexDecode, invalid] at decoded
    | case5 a b rest high valid invalid => simp [hexDecode, valid, invalid] at decoded
    | case6 a b rest high low second first ih =>
      simp only [hexDecode, first, second] at decoded
      cases spelled : hexDecode rest with
      | error err =>
        rw [spelled] at decoded
        cases decoded
      | ok tail =>
        rw [spelled] at decoded
        cases decoded
        exact .cons first second (ih spelled)
  · intro spelled
    induction spelled with
    | nil => rfl
    | cons first second _ ih =>
      simp only [hexDecode, first, second, ih]
      rfl

theorem IsHex.unique {text : Text} {first second : List UInt8} (one : IsHex text first)
    (other : IsHex text second) : first = second :=
  Except.ok.inj ((hexDecode_eq_ok_iff.mpr one).symm.trans (hexDecode_eq_ok_iff.mpr other))

theorem IsHex.length {text : Text} {bytes : List UInt8} (spelled : IsHex text bytes) :
    text.length = 2 * bytes.length := by
  induction spelled with
  | nil => rfl
  | cons _ _ _ ih =>
    simp only [List.length_cons, ih]
    omega

theorem isHex_replicate_f (count : Nat) :
    IsHex (List.replicate (2 * count) 'f') (List.replicate count (255 : UInt8)) := by
  induction count with
  | zero => exact .nil
  | succ count ih =>
    have digit : hexValue 'f' = some 15 := by decide
    rw [show 2 * (count + 1) = 2 * count + 1 + 1 by omega, List.replicate_succ, List.replicate_succ,
      List.replicate_succ]
    exact .cons digit digit ih

end Ttgo.Lib
