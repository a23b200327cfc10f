/-
**TOML documents, read character by character.**

The grammar of TOML 1.0 as a machine that reads one character at a time and writes a statement when one is
complete, and the rules about tables as a machine that reads statements and writes the values of the
document with their paths. Arrays and inline tables are checked and kept as they are written.

* `Quoted.feed` — strings of all four kinds; `feedKey` — dotted keys; `feedValue` — values.
* `Mode.feed` — documents; `feedLine` — a whole line.
* `Tables.feed` — a key is assigned once, a table is opened once, and a dotted key does not reach into a
  table that a header has opened.
* `decode` — the document of a text.
-/

import Ttgo.Lib.GoMap
import Ttgo.Lib.GoStrings
import Ttgo.Lib.Transducer

namespace Ttgo.Lib.Toml

inductive Value
  | string (text : Text)
  /-- A number, a truth value, a date or a time, as it is written. -/
  | scalar (token : Text)
  /-- An array or an inline table, as it is written. -/
  | nested (raw : Text)
deriving DecidableEq, Repr

inductive Statement
  | assign (key : List Text) (value : Value)
  | table (name : List Text)
  | arrayTable (name : List Text)
deriving DecidableEq, Repr

/-! ### Characters and scalars -/

def isBlank (c : Char) : Bool := c = ' ' ∨ c = '\t'

def isLineBreak (c : Char) : Bool := c = '\n' ∨ c = '\r'

def isBare (c : Char) : Bool := c.isAlphanum ∨ c = '_' ∨ c = '-'

/-- A character that may not stand for itself. -/
def isControl (c : Char) : Bool := (c.toNat < 0x20 ∧ c ≠ '\t') ∨ c.toNat = 0x7f

/-- A character of a scalar. -/
def isToken (c : Char) : Bool := c.isAlphanum ∨ c ∈ ['+', '-', '_', '.', ':']

/-- Digits, with underscores between them. -/
def isDigits (digit : Char → Bool) (text : Text) : Bool :=
  (text.splitOn '_').all fun group => group ≠ [] ∧ group.all digit

def unsigned : Text → Text
  | '+' :: text | '-' :: text => text
  | text => text

def isDecimal (text : Text) : Bool :=
  isDigits Char.isDigit text ∧ (text.head? = some '0' → text.length = 1)

def isInteger : Text → Bool
  | '0' :: 'x' :: digits => isDigits (fun c => (hexValue c).isSome) digits
  | '0' :: 'o' :: digits => isDigits (fun c => '0' ≤ c ∧ c ≤ '7') digits
  | '0' :: 'b' :: digits => isDigits (fun c => c = '0' ∨ c = '1') digits
  | text => isDecimal (unsigned text)

def isFloat (text : Text) : Bool :=
  let body := unsigned text
  let mantissa := body.takeWhile fun c => c ≠ 'e' ∧ c ≠ 'E'
  let exponent := body.drop mantissa.length
  let whole := mantissa.takeWhile (· ≠ '.')
  let fraction := mantissa.drop whole.length
  body = "inf".toList ∨ body = "nan".toList ∨
    isDecimal whole ∧ (fraction = [] ∨ isDigits Char.isDigit (fraction.drop 1)) ∧
      (exponent = [] ∨ isDigits Char.isDigit (unsigned (exponent.drop 1))) ∧
      (fraction ≠ [] ∨ exponent ≠ [])

/-- The text has the shape, where a zero stands for any digit. -/
def hasShape (shape : String) (text : Text) : Bool :=
  text.length = shape.length ∧
    (shape.toList.zip text).all fun pair => if pair.1 = '0' then pair.2.isDigit else pair.1 = pair.2

def isDate (text : Text) : Bool := hasShape "0000-00-00" text

def isTime (text : Text) : Bool :=
  hasShape "00:00:00" (text.take 8) ∧
    (text.drop 8 = [] ∨ (text.drop 8).head? = some '.' ∧ text.drop 9 ≠ [] ∧ (text.drop 9).all Char.isDigit)

def isOffsetTime (text : Text) : Bool :=
  (text.getLast? = some 'Z' ∨ text.getLast? = some 'z') ∧ isTime text.dropLast ∨
    (hasShape "+00:00" (text.rtake 6) ∨ hasShape "-00:00" (text.rtake 6)) ∧ isTime (text.rdrop 6)

def isDateTime (text : Text) : Bool :=
  isDate text ∨ isTime text ∨
    isDate (text.take 10) ∧ (text.drop 10).head? ∈ [some 'T', some 't', some ' '] ∧
      (isTime (text.drop 11) ∨ isOffsetTime (text.drop 11))

def isScalar (token : Text) : Bool :=
  token = "true".toList ∨ token = "false".toList ∨ isInteger token ∨ isFloat token ∨ isDateTime token

/-! ### Strings -/

inductive Escape
  | none
  | backslash
  /-- Digits that are to come, and the value of those that have. -/
  | hex (left value : Nat)
  /-- A backslash at the end of a line, and whether the line has ended. -/
  | trimming (ended : Bool)
deriving DecidableEq, Repr

/-- A string whose end has not come. -/
structure Quoted where
  literal : Bool
  multiline : Bool
  text : Text := []
  escape : Escape := .none
  /-- Quotes that are the end of a multi-line string if there are three. -/
  quotes : Nat := 0
deriving DecidableEq, Repr

inductive Scanned
  | more (q : Quoted)
  | closed (text : Text)
  /-- The string was complete before the character. -/
  | complete (text : Text)
deriving DecidableEq, Repr

/-- The quote of a kind of string. -/
def quoteOf (literal : Bool) : Char := if literal then '\'' else '"'

def simpleEscape : Char → Option Char
  | 'b' => some '\x08'
  | 't' => some '\t'
  | 'n' => some '\n'
  | 'f' => some '\x0c'
  | 'r' => some '\r'
  | '"' => some '"'
  | '\\' => some '\\'
  | _ => none

namespace Quoted

def push (q : Quoted) (c : Char) : Quoted := { q with text := q.text ++ [c], escape := .none }

/-- The quotes that were not the end. -/
def settle (q : Quoted) : Quoted :=
  { q with text := q.text ++ List.replicate q.quotes (quoteOf q.literal), quotes := 0 }

/-- A character outside of an escape. -/
def plain (q : Quoted) (c : Char) : Option Scanned :=
  if c = quoteOf q.literal then
    if !q.multiline then some (.closed q.text)
    else if q.quotes < 5 then some (.more { q with quotes := q.quotes + 1 })
    else none
  else if 3 ≤ q.quotes then
    some (.complete (q.text ++ List.replicate (q.quotes - 3) (quoteOf q.literal)))
  else if c = '\\' ∧ !q.literal then some (.more { q.settle with escape := .backslash })
  else if isLineBreak c then if q.multiline then some (.more (q.settle.push c)) else none
  else if isControl c then none
  else some (.more (q.settle.push c))

def feed (q : Quoted) (c : Char) : Option Scanned :=
  match q.escape with
  | .none => q.plain c
  | .backslash =>
    match simpleEscape c with
    | some meant => some (.more (q.push meant))
    | none =>
      if c = 'u' then some (.more { q with escape := .hex 4 0 })
      else if c = 'U' then some (.more { q with escape := .hex 8 0 })
      else if q.multiline ∧ (isBlank c ∨ isLineBreak c) then
        some (.more { q with escape := .trimming (c = '\n') })
      else none
  | .hex left value =>
    (hexValue c).bind fun digit =>
      let number := value * 16 + digit
      if 1 < left then some (.more { q with escape := .hex (left - 1) number })
      else if number.isValidChar then some (.more (q.push (Char.ofNat number)))
      else none
  | .trimming ended =>
    if c = '\n' then some (.more { q with escape := .trimming true })
    else if isBlank c ∨ c = '\r' then some (.more q)
    else if ended then { q with escape := .none }.plain c
    else none

end Quoted

/-! ### Keys -/

/-- Where the reading of a part of a key stands. -/
inductive Part
  | expected
  | bare (text : Text)
  | quoted (q : Quoted)
  | read (text : Text)
deriving DecidableEq, Repr

inductive KeyStep
  | more (path : List Text) (part : Part)
  /-- The key is complete, and the character does not belong to it. -/
  | stop (path : List Text)
deriving DecidableEq, Repr

def feedKey (path : List Text) (part : Part) (c : Char) : Option KeyStep :=
  match part with
  | .expected =>
    if isBlank c then some (.more path .expected)
    else if isBare c then some (.more path (.bare [c]))
    else if c = '"' then some (.more path (.quoted ⟨false, false, [], .none, 0⟩))
    else if c = '\'' then some (.more path (.quoted ⟨true, false, [], .none, 0⟩))
    else none
  | .bare text =>
    if isBare c then some (.more path (.bare (text ++ [c])))
    else if isBlank c then some (.more path (.read text))
    else if c = '.' then some (.more (path ++ [text]) .expected)
    else some (.stop (path ++ [text]))
  | .quoted q =>
    (q.feed c).bind fun
      | .more q => some (.more path (.quoted q))
      | .closed text => some (.more path (.read text))
      | .complete _ => none
  | .read text =>
    if isBlank c then some (.more path (.read text))
    else if c = '.' then some (.more (path ++ [text]) .expected)
    else some (.stop (path ++ [text]))

/-! ### Documents -/

inductive Bracket
  | array
  | inline
deriving DecidableEq, Repr

inductive Lexer
  | start
  /-- One or two quotes at the start. -/
  | quote (literal : Bool) (count : Nat)
  /-- Three quotes at the start. -/
  | opening (literal : Bool)
  | quoted (q : Quoted)
  | bare (token : Text)
  /-- A date and a blank, after which a time may follow. -/
  | dated (token : Text)
  /-- After a value inside brackets. -/
  | between
  /-- In a comment inside brackets, before or after a value. -/
  | remark (before : Bool)
  /-- In a key of an inline table, which may also be empty. -/
  | inner (empty : Bool) (path : List Text) (part : Part)
deriving DecidableEq, Repr

inductive Place
  | assign
  | table
  | arrayTable
deriving DecidableEq, Repr

/-- Where the reading of a document stands. -/
inductive Mode
  | line
  | comment
  /-- A carriage return that ends a line. -/
  | cr
  /-- After a statement. -/
  | after
  /-- A bracket at the start of a line. -/
  | opened
  | key (place : Place) (path : List Text) (part : Part)
  /-- The first bracket after the name of an array of tables. -/
  | closing (name : List Text)
  | value (key : List Text) (stack : List Bracket) (raw : Text) (lexer : Lexer)
deriving DecidableEq, Repr

def feedAfter (c : Char) : Option Mode :=
  if isBlank c then some .after
  else if c = '\n' then some .line
  else if c = '\r' then some .cr
  else if c = '#' then some .comment
  else none

section Values

variable (key : List Text)

/-- A bracket closes. -/
def closeBracket (rest : List Bracket) (raw : Text) : Mode × List Statement :=
  match rest with
  | [] => (.after, [.assign key (.nested raw)])
  | _ :: _ => (.value key rest raw .between, [])

/-- A character after a value inside brackets. -/
def feedBetween (stack : List Bracket) (raw : Text) (c : Char) : Option (Mode × List Statement) :=
  match stack with
  | [] => none
  | .array :: rest =>
    if isBlank c ∨ isLineBreak c then some (.value key stack (raw ++ [c]) .between, [])
    else if c = '#' then some (.value key stack (raw ++ [c]) (.remark false), [])
    else if c = ',' then some (.value key stack (raw ++ [c]) .start, [])
    else if c = ']' then some (closeBracket key rest (raw ++ [c]))
    else none
  | .inline :: rest =>
    if isBlank c then some (.value key stack (raw ++ [c]) .between, [])
    else if c = ',' then some (.value key stack (raw ++ [c]) (.inner false [] .expected), [])
    else if c = '}' then some (closeBracket key rest (raw ++ [c]))
    else none

/-- A value was complete before the character. -/
def completed (stack : List Bracket) (raw : Text) (value : Value) (c : Char) :
    Option (Mode × List Statement) :=
  match stack with
  | [] => (feedAfter c).map (·, [.assign key value])
  | _ :: _ => feedBetween key stack raw c

/-- The text of the outermost brackets with one more character. -/
def extend (stack : List Bracket) (raw : Text) (c : Char) : Text :=
  if stack = [] then raw else raw ++ [c]

def feedQuoted (stack : List Bracket) (raw : Text) (q : Quoted) (c : Char) :
    Option (Mode × List Statement) :=
  (q.feed c).bind fun
    | .more q => some (.value key stack (extend stack raw c) (.quoted q), [])
    | .closed text =>
      match stack with
      | [] => some (.after, [.assign key (.string text)])
      | _ :: _ => some (.value key stack (extend stack raw c) .between, [])
    | .complete text => completed key stack raw (.string text) c

/-- The start of a value. -/
def feedStart (stack : List Bracket) (raw : Text) (c : Char) : Option (Mode × List Statement) :=
  let stay (lexer : Lexer) := some (Mode.value key stack (extend stack raw c) lexer, [])
  if isBlank c then stay .start
  else if c = '"' then stay (.quote false 1)
  else if c = '\'' then stay (.quote true 1)
  else if c = '[' then some (.value key (.array :: stack) (raw ++ [c]) .start, [])
  else if c = '{' then some (.value key (.inline :: stack) (raw ++ [c]) (.inner true [] .expected), [])
  else if isToken c then stay (.bare [c])
  else
    match stack with
    | .array :: rest =>
      if isLineBreak c then stay .start
      else if c = '#' then stay (.remark true)
      else if c = ']' then some (closeBracket key rest (raw ++ [c]))
      else none
    | _ => none

def feedValue (stack : List Bracket) (raw : Text) (lexer : Lexer) (c : Char) :
    Option (Mode × List Statement) :=
  let stay (lexer : Lexer) := some (Mode.value key stack (extend stack raw c) lexer, [])
  match lexer with
  | .start => feedStart key stack raw c
  | .quote literal count =>
    if c = quoteOf literal then
      if count = 1 then stay (.quote literal 2) else stay (.opening literal)
    else if count = 1 then feedQuoted key stack raw ⟨literal, false, [], .none, 0⟩ c
    else completed key stack raw (.string []) c
  | .opening literal =>
    -- a line break right after the quotes is no part of the string
    if c = '\n' then stay (.quoted ⟨literal, true, [], .none, 0⟩)
    else if c = '\r' then stay (.opening literal)
    else feedQuoted key stack raw ⟨literal, true, [], .none, 0⟩ c
  | .quoted q => feedQuoted key stack raw q c
  | .bare token =>
    if isToken c then stay (.bare (token ++ [c]))
    else if c = ' ' ∧ isDate token then stay (.dated token)
    else if isScalar token then completed key stack raw (.scalar token) c
    else none
  | .dated token =>
    if c.isDigit then stay (.bare (token ++ [' ', c])) else completed key stack raw (.scalar token) c
  | .between => feedBetween key stack raw c
  | .remark before =>
    if c = '\n' then stay (if before then .start else .between)
    else if isControl c ∧ c ≠ '\r' then none
    else stay (.remark before)
  | .inner empty path part =>
    if c = '}' ∧ empty ∧ part = .expected then some (closeBracket key stack.tail (raw ++ [c]))
    else
      (feedKey path part c).bind fun
        | .more path part => stay (.inner (empty && part = .expected) path part)
        | .stop _ => if c = '=' then stay .start else none

end Values

/-- A character of a key at the start of a line or of a header. -/
def keyed (place : Place) (c : Char) : Option KeyStep → Option (Mode × List Statement)
  | none => none
  | some (.more path part) => some (.key place path part, [])
  | some (.stop path) =>
    match place with
    | .assign => if c = '=' then some (.value path [] [] .start, []) else none
    | .table => if c = ']' then some (.after, [.table path]) else none
    | .arrayTable => if c = ']' then some (.closing path, []) else none

def Mode.feed (mode : Mode) (c : Char) : Option (Mode × List Statement) :=
  match mode with
  | .line =>
    if isBlank c ∨ c = '\n' then some (.line, [])
    else if c = '\r' then some (.cr, [])
    else if c = '#' then some (.comment, [])
    else if c = '[' then some (.opened, [])
    else keyed .assign c (feedKey [] .expected c)
  | .comment =>
    if c = '\n' then some (.line, [])
    else if c = '\r' then some (.cr, [])
    else if isControl c then none
    else some (.comment, [])
  | .cr => if c = '\n' then some (.line, []) else none
  | .after => (feedAfter c).map (·, [])
  | .opened =>
    if c = '[' then some (.key .arrayTable [] .expected, [])
    else keyed .table c (feedKey [] .expected c)
  | .key place path part => keyed place c (feedKey path part c)
  | .closing name => if c = ']' then some (.after, [.arrayTable name]) else none
  | .value name stack raw lexer => feedValue name stack raw lexer c

/-- A line with its end. -/
def feedLine (mode : Mode) (line : Text) : Option (Mode × List Statement) :=
  transduce Mode.feed mode (line ++ ['\n'])

/-! ### Tables -/

/-- The place of a value or a table; the elements of an array of tables are counted from one. -/
abbrev Path := List (Text × Nat)

inductive Kind
  | value
  /-- A table that a header has opened. -/
  | table
  /-- A table that only a longer header has named. -/
  | parent
  /-- A table of a dotted key. -/
  | dotted
  | tables (count : Nat)
deriving DecidableEq, Repr

structure Tables where
  kinds : GoMap Path Kind
  current : Path
deriving DecidableEq

namespace Tables

def initial : Tables := ⟨∅, []⟩

/-- The tables of a path that are named one after the other. `door` says for what is known of a table
whether the path may go through it, as which element, and what it becomes if it is new. -/
def descend (door : Option Kind → Option (Nat × Option Kind)) (kinds : GoMap Path Kind) (path : Path) :
    List Text → Option (GoMap Path Kind × Path)
  | [] => some (kinds, path)
  | name :: rest =>
    (door (kinds.lookup (path ++ [(name, 0)]))).bind fun
      | (count, none) => descend door kinds (path ++ [(name, count)]) rest
      | (count, some new) =>
        descend door (kinds.insert (path ++ [(name, 0)]) new) (path ++ [(name, count)]) rest

/-- A header goes through every kind of table, and through the last element of an array of tables. -/
def headerDoor : Option Kind → Option (Nat × Option Kind)
  | none => some (0, some .parent)
  | some .value => none
  | some (.tables count) => some (count, none)
  | some .table | some .parent | some .dotted => some (0, none)

/-- A dotted key goes through the tables of dotted keys only. -/
def dottedDoor : Option Kind → Option (Nat × Option Kind)
  | none => some (0, some .dotted)
  | some .dotted => some (0, none)
  | some .value | some .table | some .parent | some (.tables _) => none

/-- What a statement defines: the tables after it, the path to the name, the name, and what it is. -/
structure Defined where
  kinds : GoMap Path Kind
  path : Path
  name : Text
  kind : Kind

/-- The name at the end of a path is defined, if `becomes` allows it. -/
def define (door : Option Kind → Option (Nat × Option Kind)) (becomes : Option Kind → Option Kind)
    (kinds : GoMap Path Kind) (start : Path) (names : List Text) : Option Defined := do
  let name ← names.getLast?
  let (opened, path) ← descend door kinds start names.dropLast
  let kind ← becomes (opened.lookup (path ++ [(name, 0)]))
  return ⟨opened.insert (path ++ [(name, 0)]) kind, path, name, kind⟩

/-- A key is assigned once. -/
def becomesValue : Option Kind → Option Kind
  | none => some .value
  | some _ => none

/-- A table is opened once. -/
def becomesTable : Option Kind → Option Kind
  | none | some .parent => some .table
  | some .value | some .table | some .dotted | some (.tables _) => none

def becomesTables : Option Kind → Option Kind
  | none => some (.tables 1)
  | some (.tables count) => some (.tables (count + 1))
  | some .value | some .table | some .parent | some .dotted => none

def Defined.place (defined : Defined) : Path := defined.path ++ [(defined.name, 0)]

/-- The place of the last element of an array of tables. -/
def Defined.element (defined : Defined) : Path :=
  match defined.kind with
  | .tables count => defined.path ++ [(defined.name, count)]
  | .value | .table | .parent | .dotted => defined.place

def feed (tables : Tables) : Statement → Option (Tables × List (Path × Value))
  | .assign key value =>
    (define dottedDoor becomesValue tables.kinds tables.current key).map fun defined =>
      (⟨defined.kinds, tables.current⟩, [(defined.place, value)])
  | .table name =>
    (define headerDoor becomesTable tables.kinds [] name).map fun defined =>
      (⟨defined.kinds, defined.place⟩, [])
  | .arrayTable name =>
    (define headerDoor becomesTables tables.kinds [] name).map fun defined =>
      (⟨defined.kinds, defined.element⟩, [])

end Tables

/-- A document: its tables, and its values in the order of the text. -/
structure Document where
  kinds : GoMap Path Kind
  values : List (Path × Value)
deriving DecidableEq

/-- Where the reading of a document stands at the start of a line. -/
structure Reader where
  mode : Mode
  tables : Tables
deriving DecidableEq

namespace Reader

def initial : Reader := ⟨.line, .initial⟩

/-- A line of a document: its statements, and what they put into the tables. -/
def feed (reader : Reader) (line : Text) : Option (Reader × List (Path × Value)) := do
  let (mode, statements) ← feedLine reader.mode line
  let (tables, values) ← transduce Tables.feed reader.tables statements
  return (⟨mode, tables⟩, values)

end Reader

/-- The document of its lines: the last one ends a statement. -/
def decodeLines (lines : List Text) : Option Document := do
  let (reader, values) ← transduce Reader.feed .initial lines
  if reader.mode = .line then some ⟨reader.tables.kinds, values⟩ else none

def decode (text : Text) : Option Document := decodeLines (splitLines text)

end Ttgo.Lib.Toml
