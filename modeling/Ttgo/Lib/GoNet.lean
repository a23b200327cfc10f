/-
**Go's addresses and networks.**

The parts of `net` and `net/netip` that decide on addresses: the texts of addresses and networks, and
membership of an address in a network.

* `IP` — `net.IP`, four or sixteen bytes; `to4`, `to16`; `reachedIP` — where a packet goes.
* `parseAddr` — `netip.ParseAddr` without zones; `parseIP` — `net.ParseIP`.
* `parseCIDR` — `net.ParseCIDR`; `IPNet.contains` — `IPNet.Contains`.
* `splitHostPort` — `net.SplitHostPort`.
-/

import Ttgo.Lib.GoStrings

namespace Ttgo.Lib

/-! ### Addresses -/

abbrev IP := List UInt8

def v4InV6Prefix : IP := List.replicate 10 0 ++ [255, 255]

/-- `IP.To4`. -/
def to4 (ip : IP) : Option IP :=
  if ip.length = 4 then some ip
  else if ip.length = 16 ∧ ip.take 12 = v4InV6Prefix then some (ip.drop 12)
  else none

/-- `IP.To16`. -/
def to16 (ip : IP) : Option IP :=
  if ip.length = 4 then some (v4InV6Prefix ++ ip) else if ip.length = 16 then some ip else none

def loopback : IP := v4InV6Prefix ++ [127, 0, 0, 1]

/-- `IP.IsUnspecified`. -/
def isUnspecified (ip : IP) : Bool := to16 ip = some (v4InV6Prefix ++ [0, 0, 0, 0]) ∨ ip = List.replicate 16 0

/-- Where a packet to an address goes: an unspecified one stands for the local system. -/
def reachedIP (ip : IP) : IP :=
  if ip = List.replicate 16 0 then List.replicate 15 0 ++ [1] else if isUnspecified ip then loopback else ip

theorem reachedIP_of_specified {ip : IP} (specified : isUnspecified ip = false) : reachedIP ip = ip := by
  have other : ip ≠ List.replicate 16 0 := by
    rintro rfl
    exact absurd specified (by decide)
  rw [reachedIP, if_neg other, specified]
  rfl

def decimal (digits : Text) : Nat :=
  digits.foldl (fun value digit => value * 10 + (digit.toNat - '0'.toNat)) 0

/-- A field of an IPv4 address: digits without a leading zero, at most 255. -/
def parseOctet (field : Text) : Option UInt8 :=
  if field ≠ [] ∧ field.all Char.isDigit ∧ (field.head? = some '0' → field.length = 1) ∧
      decimal field ≤ 255 then some (UInt8.ofNat (decimal field))
  else none

/-- `parseIPv4Fields`. -/
def parseIPv4 (text : Text) : Option IP :=
  match text.splitOn '.' with
  | [a, b, c, d] => do
    let a ← parseOctet a
    let b ← parseOctet b
    let c ← parseOctet c
    let d ← parseOctet d
    return [a, b, c, d]
  | _ => none

def hexNumber (digits : Text) : Nat :=
  digits.foldl (fun value digit => value * 16 + (hexValue digit).getD 0) 0

/-- The loop of `parseIPv6`: the bytes that were read, and where the ellipsis stands among them. The
number is how many groups there is room for. -/
def parseGroups : Nat → Text → IP → Option Nat → Option (IP × Option Nat)
  | 0, text, bytes, ellipsis => if text = [] then some (bytes, ellipsis) else none
  | room + 1, text, bytes, ellipsis =>
    let digits := text.takeWhile fun c => (hexValue c).isSome
    let group := bytes ++ [UInt8.ofNat (hexNumber digits / 256), UInt8.ofNat (hexNumber digits)]
    if digits = [] ∨ 4 < digits.length then none
    else
      match text.drop digits.length with
      | [] => some (group, ellipsis)
      | '.' :: _ =>
        -- an IPv4 address at the end
        if (ellipsis = none ∧ bytes.length ≠ 12) ∨ 16 < bytes.length + 4 then none
        else (parseIPv4 text).map fun last => (bytes ++ last, ellipsis)
      | [':'] => none
      | [':', ':'] => if ellipsis.isSome then none else some (group, some group.length)
      | ':' :: ':' :: rest =>
        if ellipsis.isSome then none else parseGroups room rest group (some group.length)
      | ':' :: rest => parseGroups room rest group ellipsis
      | _ => none

/-- The zeros that the ellipsis stands for: at least one group. -/
def expandEllipsis : IP × Option Nat → Option IP
  | (bytes, none) => if bytes.length = 16 then some bytes else none
  | (bytes, some place) =>
    if bytes.length < 16 then
      some (bytes.take place ++ List.replicate (16 - bytes.length) 0 ++ bytes.drop place)
    else none

/-- `parseIPv6`, of an address without a zone. -/
def parseIPv6 : Text → Option IP
  | [':', ':'] => some (List.replicate 16 0)
  | ':' :: ':' :: rest => (parseGroups 8 rest [] (some 0)).bind expandEllipsis
  | text => (parseGroups 8 text [] none).bind expandEllipsis

/-- `netip.ParseAddr` of an address without a zone: the first dot or colon decides its kind. -/
def parseAddr (text : Text) : Option IP :=
  match text.find? fun c => c = '.' ∨ c = ':' ∨ c = '%' with
  | some '.' => parseIPv4 text
  | some ':' => if '%' ∈ text then none else parseIPv6 text
  | _ => none

def parseIP (text : Text) : Option IP := (parseAddr text).bind to16

/-! ### Networks -/

structure IPNet where
  ip : IP
  mask : List UInt8
deriving DecidableEq, Repr

/-- A byte of `net.CIDRMask`: as many ones as are left, at most eight. -/
def maskByte (ones : Nat) : UInt8 := UInt8.ofNat (255 - (255 >>> ones))

def cidrMask (ones : Nat) : Nat → List UInt8
  | 0 => []
  | bytes + 1 => maskByte ones :: cidrMask (ones - 8) bytes

def maskBytes (ip mask : List UInt8) : List UInt8 := List.zipWith (· &&& ·) ip mask

/-- `net.ParseCIDR`: the network. -/
def parseCIDR (text : Text) : Option IPNet :=
  match text.dropWhile (· ≠ '/') with
  | _ :: ones => do
    let addr ← parseAddr (text.takeWhile (· ≠ '/'))
    if ones ≠ [] ∧ ones.all Char.isDigit ∧ decimal ones ≤ 8 * addr.length then
      let mask := cidrMask (decimal ones) addr.length
      some ⟨maskBytes addr mask, mask⟩
    else none
  | [] => none

/-- `networkNumberAndMask`. -/
def IPNet.numberAndMask (network : IPNet) : Option (IP × List UInt8) :=
  match to4 network.ip with
  | some ip =>
    if network.mask.length = 4 then some (ip, network.mask)
    else if network.mask.length = 16 then some (ip, network.mask.drop 12)
    else none
  | none =>
    if network.ip.length = 16 ∧ network.mask.length = 16 then some (network.ip, network.mask) else none

def IPNet.contains (network : IPNet) (ip : IP) : Bool :=
  match network.numberAndMask with
  | none => false
  | some (number, mask) =>
    let ip := (to4 ip).getD ip
    ip.length = number.length && maskBytes number mask = maskBytes ip mask

/-! ### Host and port -/

/-- `net.SplitHostPort`; `none` is an error. -/
def splitHostPort (text : Text) : Option (Text × Text) :=
  -- the port starts after the last colon
  let port := text.rtakeWhile (· ≠ ':')
  let front := text.rdropWhile (· ≠ ':')
  match front.reverse with
  | [] => none
  | _ :: reversed =>
    let host := reversed.reverse
    match text with
    | '[' :: rest =>
      -- the first bracket that closes stands just before the last colon
      if rest.takeWhile (· ≠ ']') ++ [']'] = host.drop 1 ∧ '[' ∉ rest ∧ ']' ∉ port then
        some (rest.takeWhile (· ≠ ']'), port)
      else none
    | _ => if ':' ∈ host ∨ '[' ∈ text ∨ ']' ∈ text then none else some (host, port)

end Ttgo.Lib
