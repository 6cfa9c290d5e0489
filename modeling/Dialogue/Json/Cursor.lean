import Dialogue.Shape.Mismatch

/-!
# Reading JSON text: places and problems

A `Reader` consumes a text from its front and knows how far it has come. A problem is met at a
`Place`: the line, from one, and the number of bytes consumed on it. `fail` reports the place
reached and `failAtNext` the place just behind the next byte; a value that does not fit is reported
without a place (`failFit`) and gets one where its enclosing value ends (`placed`).
-/

namespace Dialogue.Json

/-- How far a text has been consumed. -/
structure Place where
  line : Nat
  column : Nat
  deriving DecidableEq, Repr

/-- The place behind one more character. -/
def Place.past (p : Place) (c : Char) : Place :=
  if c = '\n' then ⟨p.line + 1, 0⟩ else ⟨p.line, p.column + c.utf8Size⟩

/-- The place behind one more byte, the first of a character. -/
def Place.pastByte (p : Place) (c : Char) : Place :=
  if c = '\n' then ⟨p.line + 1, 0⟩ else ⟨p.line, p.column + 1⟩

/-- What can be wrong with a text. -/
inductive Trouble where
  | endInList
  | endInObject
  | endInString
  | endInValue
  | expectedColon
  | expectedListEnd
  | expectedObjectEnd
  | expectedWord
  | expectedValue
  | invalidEscape
  | invalidNumber
  | numberOutOfRange
  | controlCharacter
  | keyNotString
  | loneSurrogate
  | unfinishedEscape
  | trailingComma
  | trailingText
  | tooDeep
  /-- Sound text whose value does not fit. -/
  | unfit (m : Mismatch)
  deriving DecidableEq, Repr

/-- The wording of what is wrong. -/
def Trouble.text : Trouble → String
  | .endInList => "EOF while parsing a list"
  | .endInObject => "EOF while parsing an object"
  | .endInString => "EOF while parsing a string"
  | .endInValue => "EOF while parsing a value"
  | .expectedColon => "expected " ++ backquoted ":"
  | .expectedListEnd => "expected " ++ backquoted "," ++ " or " ++ backquoted "]"
  | .expectedObjectEnd => "expected " ++ backquoted "," ++ " or " ++ backquoted "\x7d"
  | .expectedWord => "expected ident"
  | .expectedValue => "expected value"
  | .invalidEscape => "invalid escape"
  | .invalidNumber => "invalid number"
  | .numberOutOfRange => "number out of range"
  | .controlCharacter => "control character (\\u0000-\\u001F) found while parsing a string"
  | .keyNotString => "key must be a string"
  | .loneSurrogate => "lone leading surrogate in hex escape"
  | .unfinishedEscape => "unexpected end of hex escape"
  | .trailingComma => "trailing comma"
  | .trailingText => "trailing characters"
  | .tooDeep => "recursion limit exceeded"
  | .unfit m => m.message

/-- What is wrong, and where if that is settled. -/
structure Problem where
  trouble : Trouble
  place : Option Place
  deriving DecidableEq, Repr

/-- The wording of a problem with its place. -/
def Problem.message (p : Problem) : String :=
  match p.place with
  | none => p.trouble.text
  | some ⟨line, column⟩ =>
    p.trouble.text ++ " at line " ++ toString line ++ " column " ++ toString column

/-- A text, partly consumed. -/
structure Cursor where
  place : Place
  rest : List Char

/-- Consumes a text from its front; the place reached is known after a problem, too. -/
abbrev Reader (α : Type) := ExceptT Problem (StateM Cursor) α

namespace Reader

/-- The next character, if any. -/
def peek : Reader (Option Char) := fun c => (.ok c.rest.head?, c)

/-- Consumes the next character. -/
def skip : Reader Unit := fun c =>
  match c.rest with
  | [] => (.ok (), c)
  | x :: rest => (.ok (), ⟨c.place.past x, rest⟩)

/-- Reports a problem at the place reached. -/
def fail {α : Type} (t : Trouble) : Reader α := fun c => (.error ⟨t, some c.place⟩, c)

/-- Reports a problem behind the next byte, or at the end of the text. -/
def failAtNext {α : Type} (t : Trouble) : Reader α := fun c =>
  match c.rest with
  | [] => (.error ⟨t, some c.place⟩, c)
  | x :: _ => (.error ⟨t, some (c.place.pastByte x)⟩, c)

/-- Reports a value that does not fit; its place is settled later. -/
def failFit {α : Type} (m : Mismatch) : Reader α := fun c => (.error ⟨.unfit m, none⟩, c)

/-- Settles the place of a problem that has none: where the reader stopped. -/
def placed {α : Type} (r : Reader α) : Reader α := fun c =>
  match r c with
  | (.error ⟨t, none⟩, c') => (.error ⟨t, some c'.place⟩, c')
  | result => result

/-- Runs `closing` after `body` whether or not it succeeded; a problem in `body` is reported first.
-/
def closedBy {α : Type} (body : Reader α) (closing : Reader Unit) : Reader α := fun c =>
  match body c with
  | (.ok a, c') =>
    match closing c' with
    | (.ok (), c'') => (.ok a, c'')
    | (.error p, c'') => (.error p, c'')
  | (.error p, c') => (.error p, (closing c').2)

/-- A blank between tokens. -/
def isBlank (c : Char) : Bool := c = ' ' || c = '\n' || c = '\t' || c = '\r'

/-- The cursor behind any blanks. -/
def pastBlanks (place : Place) : List Char → Cursor
  | [] => ⟨place, []⟩
  | c :: rest => if isBlank c then pastBlanks (place.past c) rest else ⟨place, c :: rest⟩

/-- Consumes blanks and shows the character behind them. -/
def peekToken : Reader (Option Char) := fun c =>
  let c' := pastBlanks c.place c.rest
  (.ok c'.rest.head?, c')

/-- Consumes the remaining letters of a word whose first letter has been consumed. -/
def word : List Char → Reader Unit
  | [] => pure ()
  | expected :: more => do
    match ← peek with
    | none => fail .endInValue
    | some c =>
      if c = expected then do skip; word more else failAtNext .expectedWord

/-- Ends a list: its bracket. -/
def endList : Reader Unit := do
  match ← peekToken with
  | some ']' => skip
  | some ',' =>
    skip
    match ← peekToken with
    | some ']' => failAtNext .trailingComma
    | _ => failAtNext .trailingText
  | some _ => failAtNext .trailingText
  | none => failAtNext .endInList

/-- Ends an object: its brace. -/
def endObject : Reader Unit := do
  match ← peekToken with
  | some '\x7d' => skip
  | some ',' => failAtNext .trailingComma
  | some _ => failAtNext .trailingText
  | none => failAtNext .endInObject

/-- Whether a list has another item; `first` before its first one. -/
def hasItem (first : Bool) : Reader Bool := do
  match ← peekToken with
  | none => failAtNext .endInList
  | some ']' => pure false
  | some c =>
    if first then pure true
    else if c = ',' then
      skip
      match ← peekToken with
      | some ']' => failAtNext .trailingComma
      | some _ => pure true
      | none => failAtNext .endInValue
    else failAtNext .expectedListEnd

/-- Whether an object has another entry; if so the next character opens its key. -/
def hasEntry (first : Bool) : Reader Bool := do
  match ← peekToken with
  | none => failAtNext .endInObject
  | some '\x7d' => pure false
  | some c =>
    if first then
      if c = '"' then pure true else failAtNext .keyNotString
    else if c = ',' then
      skip
      match ← peekToken with
      | some '"' => pure true
      | some '\x7d' => failAtNext .trailingComma
      | some _ => failAtNext .keyNotString
      | none => failAtNext .endInValue
    else failAtNext .expectedObjectEnd

/-- The colon between key and value. -/
def colon : Reader Unit := do
  match ← peekToken with
  | some ':' => skip
  | some _ => failAtNext .expectedColon
  | none => failAtNext .endInObject

/-- Reads a whole text; only blanks may follow the value. -/
def run {α : Type} (r : Reader α) (text : String) : Except Problem α :=
  let whole : Reader α := do
    let a ← r
    match ← peekToken with
    | none => pure a
    | some _ => failAtNext .trailingText
  (whole ⟨⟨1, 0⟩, text.toList⟩).1

end Reader

end Dialogue.Json
