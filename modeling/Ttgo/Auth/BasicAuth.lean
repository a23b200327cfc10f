/-
**The `Proxy-Authorization` header.**

`CheckExt` takes the credentials from a header `Basic <base64>`: the prefix is cut off, the rest is
decoded with `base64.StdEncoding`, and the bytes are split at the first `:`.

* `base64Decode` — `StdEncoding.DecodeString`: carriage returns and newlines are skipped, padding is
  required, and the unused low bits of the last symbol are not checked.
* `parseBasic` — the username and the password bytes, or `none` where the source answers with
  `DenyBadCreds` before it looks anybody up.
* `parseBasic_no_colon` — a username that comes out of a header has no colon.

Usernames are Lean strings, hence valid UTF-8, as are the rows of every store. A header whose
username is not valid UTF-8 names no row, so it is refused here. The password stays a list of bytes:
it is only ever compared with the bytes of a stored one.
-/

import Mathlib.Data.List.Basic

namespace Ttgo.Auth

/-- The value of a symbol of the standard alphabet. -/
def base64Value (symbol : Char) : Option Nat :=
  if 'A' ≤ symbol ∧ symbol ≤ 'Z' then some (symbol.toNat - 'A'.toNat)
  else if 'a' ≤ symbol ∧ symbol ≤ 'z' then some (symbol.toNat - 'a'.toNat + 26)
  else if '0' ≤ symbol ∧ symbol ≤ '9' then some (symbol.toNat - '0'.toNat + 52)
  else if symbol = '+' then some 62
  else if symbol = '/' then some 63
  else none

/-- The quanta of a padded text without line breaks. -/
def base64Quanta : List Char → Option (List UInt8)
  | [] => some []
  | [a, b, '=', '='] => do
    let a ← base64Value a
    let b ← base64Value b
    return [UInt8.ofNat (a * 4 + b / 16)]
  | [a, b, c, '='] => do
    let a ← base64Value a
    let b ← base64Value b
    let c ← base64Value c
    return [UInt8.ofNat (a * 4 + b / 16), UInt8.ofNat (b % 16 * 16 + c / 4)]
  | a :: b :: c :: d :: rest => do
    let a ← base64Value a
    let b ← base64Value b
    let c ← base64Value c
    let d ← base64Value d
    let rest ← base64Quanta rest
    return UInt8.ofNat (a * 4 + b / 16) :: UInt8.ofNat (b % 16 * 16 + c / 4) ::
      UInt8.ofNat (c % 4 * 64 + d) :: rest
  | _ => none

/-- `base64.StdEncoding.DecodeString`. -/
def base64Decode (text : List Char) : Option (List UInt8) :=
  base64Quanta (text.filter fun symbol => symbol ≠ '\r' ∧ symbol ≠ '\n')

/-- `strings.SplitN(s, ":", 2)` where it gives two parts: before and after the first colon. -/
def splitColon : List UInt8 → Option (List UInt8 × List UInt8)
  | [] => none
  | byte :: rest =>
    if byte = 58 then some ([], rest)
    else (splitColon rest).map fun parts => (byte :: parts.1, parts.2)

def parseBasic (header : String) : Option (String × List UInt8) := do
  let encoded ← header.toList.dropPrefix? "Basic ".toList
  let decoded ← base64Decode encoded
  let (username, password) ← splitColon decoded
  let username ← String.fromUTF8? ⟨username.toArray⟩
  return (username, password)

/-! ### Usernames have no colon -/

theorem splitColon_no_colon {bytes : List UInt8} {parts : List UInt8 × List UInt8}
    (split : splitColon bytes = some parts) : (58 : UInt8) ∉ parts.1 := by
  induction bytes generalizing parts with
  | nil => cases split
  | cons byte rest ih =>
    unfold splitColon at split
    split at split
    · cases split
      exact List.not_mem_nil
    · next other =>
      obtain ⟨tail, found, rfl⟩ := Option.map_eq_some_iff.mp split
      intro member
      rcases List.mem_cons.mp member with same | inside
      · exact other same.symm
      · exact ih found inside

theorem colon_byte_of_mem {text : String} (colon : ':' ∈ text.toList) :
    (58 : UInt8) ∈ text.toByteArray.data.toList := by
  obtain ⟨front, back, split⟩ := List.append_of_mem colon
  rw [← String.utf8Encode_toList, split, List.utf8Encode_append, List.utf8Encode_cons]
  simp only [ByteArray.data_append, Array.toList_append, List.mem_append]
  exact .inr (.inl (by decide))

theorem parseBasic_no_colon {header username : String} {password : List UInt8}
    (parsed : parseBasic header = some (username, password)) : ':' ∉ username.toList := by
  simp only [parseBasic, Option.bind_eq_bind, Option.bind_eq_some_iff, Option.pure_def,
    Option.some.injEq] at parsed
  obtain ⟨encoded, -, decoded, -, ⟨front, back⟩, split, name, utf8, same⟩ := parsed
  cases same
  intro colon
  have bytes : username.toByteArray = ⟨front.toArray⟩ := by
    unfold String.fromUTF8? at utf8
    split at utf8
    · cases utf8
      rfl
    · cases utf8
  have member := colon_byte_of_mem colon
  rw [bytes] at member
  exact splitColon_no_colon split member

end Ttgo.Auth
