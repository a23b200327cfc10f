/-
**The rules for clients.**

`internal/rules/rules.go`: a rule names a network, a pattern for the random of the `ClientHello`, both or
neither; the first rule that matches a client decides, and a client that none matches is let in.

* `RandomPattern` — the bytes of a `client_random_prefix`, with a mask of their length if there is one.
* `Rule.matchIP`, `Rule.matchRandom`, `allow` — the decision. A nil address or random is the empty one.
-/

import Ttgo.Lib.GoNet

namespace Ttgo.Rules

open Ttgo.Lib

inductive Action
  | allow
  | deny
deriving DecidableEq, Repr

structure RandomPattern where
  bytes : List UInt8
  mask : Option (List UInt8)
  aligned : ∀ m ∈ mask, m.length = bytes.length
deriving DecidableEq

/-- A compiled rule. -/
structure Rule where
  network : Option IPNet
  random : Option RandomPattern
  action : Action
deriving DecidableEq

namespace Rule

def matchIP (r : Rule) (ip : IP) : Bool :=
  match r.network with
  | none => true
  | some network => network.contains ip

def matchRandom (r : Rule) (random : List UInt8) : Bool :=
  match r.random with
  | none => true
  | some pattern =>
    if random.length < pattern.bytes.length then false
    else
      match pattern.mask with
      | none => random.take pattern.bytes.length = pattern.bytes
      | some mask => maskBytes random mask = maskBytes pattern.bytes mask

end Rule

/-- `Engine.Allow`: the loop over the rules. -/
def allow (rules : List Rule) (ip : IP) (random : List UInt8) : Bool :=
  match rules with
  | [] => true
  | r :: rest =>
    if !r.matchIP ip then allow rest ip random
    else if !r.matchRandom random then allow rest ip random
    else r.action = .allow

end Ttgo.Rules
