/-
**`os.WriteFile`.**

The file is opened and truncated, and then written: a call that fails has left the file alone or has lost its content.

* `WriteFault` — how a call fails; `writeFile` — the file after a call, and its error.
-/

import Ttgo.Lib.GoStrings

namespace Ttgo.Lib

inductive WriteFault (Data : Type)
  | refused (err : Text)
  /-- The file has been truncated, and this is what it holds when the write fails. -/
  | cut (err : Text) (left : Data)
deriving DecidableEq, Repr

variable {Data : Type}

def WriteFault.err : WriteFault Data → Text
  | refused err | cut err _ => err

def writeFile (file : Option Data) (data : Data) : Option (WriteFault Data) → Option Data × Except Text Unit
  | none => (some data, .ok ())
  | some (.refused err) => (file, .error err)
  | some (.cut err left) => (some left, .error err)

end Ttgo.Lib
