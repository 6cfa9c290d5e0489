import Dialogue.Json.Cursor

/-!
# Strings in JSON text

`Reader.stringRest` reads a string whose opening quote has been consumed; `Reader.skipStringRest`
skips one. Skipping checks that every escape is spelt soundly, but not that the halves of a
surrogate pair belong together.
-/

namespace Dialogue.Json

/-- The value of a hexadecimal digit. -/
def hexValue? (c : Char) : Option Nat :=
  if c.isDigit then some (c.toNat - '0'.toNat)
  else if 'a' ≤ c && c ≤ 'f' then some (c.toNat - 'a'.toNat + 10)
  else if 'A' ≤ c && c ≤ 'F' then some (c.toNat - 'A'.toNat + 10)
  else none

/-- The number that some hexadecimal digits spell. -/
def hexNumber? (cs : List Char) : Option Nat :=
  cs.foldlM (fun n c => (hexValue? c).map (16 * n + ·)) 0

/-- The cursor some bytes further, which may be inside a character; `none` if the text ends before.
-/
def pastBytes (bytes : Nat) (place : Place) : List Char → Option Cursor
  | [] => if bytes = 0 then some ⟨place, []⟩ else none
  | c :: rest =>
    if bytes = 0 then some ⟨place, c :: rest⟩
    else if c.utf8Size ≤ bytes then pastBytes (bytes - c.utf8Size) (place.past c) rest
    else some ⟨⟨place.line, place.column + bytes⟩, []⟩

/-- The surrogate code units that open a pair. -/
def isHighSurrogate (n : Nat) : Bool := 0xd800 ≤ n && n ≤ 0xdbff

/-- The surrogate code units that close a pair. -/
def isLowSurrogate (n : Nat) : Bool := 0xdc00 ≤ n && n ≤ 0xdfff

/-- What a one-letter escape stands for. -/
def escaped? : Char → Option Char
  | '"' => some '"'
  | '\\' => some '\\'
  | '/' => some '/'
  | 'b' => some '\x08'
  | 'f' => some '\x0c'
  | 'n' => some '\n'
  | 'r' => some '\r'
  | 't' => some '\t'
  | _ => none

namespace Reader

/-- The four bytes of a code unit behind `\u`. -/
def codeUnit : Reader Nat := fun c =>
  match pastBytes 4 c.place c.rest with
  | none =>
    let ending := c.rest.foldl Place.past c.place
    (.error ⟨.endInString, some ending⟩, ⟨ending, []⟩)
  | some c' =>
    match hexNumber? (c.rest.take 4) with
    | some n => (.ok n, c')
    | none => (.error ⟨.invalidEscape, some c'.place⟩, c')

/-- Consumes one expected character inside a surrogate pair. -/
def pairMark (expected : Char) : Reader Unit := do
  match ← peek with
  | none => fail .endInString
  | some c => if c = expected then skip else failAtNext .unfinishedEscape

/-- The character behind `\u`: a code unit, or two that form a surrogate pair. -/
def escapedUnicode : Reader Char := do
  let n ← codeUnit
  if isLowSurrogate n then fail .loneSurrogate
  else if isHighSurrogate n then
    pairMark '\\'
    pairMark 'u'
    let m ← codeUnit
    if isLowSurrogate m then
      pure (Char.ofNat (0x10000 + (n - 0xd800) * 0x400 + (m - 0xdc00)))
    else fail .loneSurrogate
  else pure (Char.ofNat n)

/-- The character behind a backslash. -/
def escapedChar : Reader Char := do
  match ← peek with
  | none => fail .endInString
  | some 'u' => do skip; escapedUnicode
  | some c =>
    match escaped? c with
    | some e => do skip; pure e
    | none => failAtNext .invalidEscape

/-- The characters of a string up to its closing quote, in reverse before `read`; `fuel` bounds
their number. -/
def stringChars : Nat → List Char → Reader (List Char)
  | 0, _ => fail .endInString
  | fuel + 1, read => do
    match ← peek with
    | none => fail .endInString
    | some '"' => do skip; pure read.reverse
    | some '\\' => do
      skip
      let c ← escapedChar
      stringChars fuel (c :: read)
    | some c =>
      if c.toNat < 0x20 then do
        skip
        fail .controlCharacter
      else do
        skip
        stringChars fuel (c :: read)

/-- A string whose opening quote has been consumed. -/
def stringRest (fuel : Nat) : Reader String := do
  return String.ofList (← stringChars fuel [])

/-- Skips an escape behind its backslash. -/
def skipEscape : Reader Unit := do
  match ← peek with
  | none => fail .endInString
  | some 'u' => do skip; let _ ← codeUnit
  | some c => if (escaped? c).isSome then skip else failAtNext .invalidEscape

/-- Skips a string whose opening quote has been consumed. -/
def skipStringRest : Nat → Reader Unit
  | 0 => fail .endInString
  | fuel + 1 => do
    match ← peek with
    | none => fail .endInString
    | some '"' => skip
    | some '\\' => do
      skip
      skipEscape
      skipStringRest fuel
    | some c =>
      if c.toNat < 0x20 then fail .controlCharacter
      else do
        skip
        skipStringRest fuel

end Reader

end Dialogue.Json
