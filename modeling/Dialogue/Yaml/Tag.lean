import Dialogue.Yaml.Quoted

/-!
# Tags, names and directives

A tag tells what a node is. It is written in full between `!<` and `>`, or as a handle and the rest
of it; directives in front of a document say what its handles stand for. Names belong to anchors and
aliases.
-/

namespace Dialogue.Yaml

/-- A character of a name. -/
def isNameChar (c : Char) : Bool := !(isSpace c || isBracketMark c || c = '\ufeff')

/-- The name at a spot, which has at least one character, and the spot behind it. -/
def Spot.name (s : Spot) : Option (String × Spot) :=
  let cs := s.rest.takeWhile isNameChar
  if cs.isEmpty then none else some (String.ofList cs, s.steps cs.length)

/-! ### Tags -/

/-- A character of a tag in full. -/
def isUriChar (c : Char) : Bool :=
  isWordChar c || "#;/?:@&=+$,.!~*'()[]%".toList.contains c

/-- A character of a tag behind its handle. -/
def isTagChar (c : Char) : Bool := isUriChar c && !isBracketMark c && c != '!'

/-- A byte spelt by a percent sign and two digits. -/
def percentByte? : List Char → Option Nat
  | '%' :: a :: b :: _ => do return 16 * (← digit? a) + (← digit? b)
  | _ => none

/-- How many bytes begin with a given one. -/
def byteCount? (first : Nat) : Option Nat :=
  if first < 0x80 then some 1
  else if 0xc0 ≤ first && first < 0xe0 then some 2
  else if 0xe0 ≤ first && first < 0xf0 then some 3
  else if 0xf0 ≤ first && first < 0xf8 then some 4
  else none

/-- The number that some more spelt bytes make, behind a number that has been read. -/
def moreBytes? : Nat → Nat → Spot → Option (Nat × Spot)
  | 0, n, s => some (n, s)
  | count + 1, n, s => do
    let byte ← percentByte? s.rest
    if byte < 0x80 || 0xc0 ≤ byte then none
    moreBytes? count (256 * n + byte) (s.steps 3)

/-- The character that spelt bytes stand for: their number read as a code point. -/
def Spot.percent (s : Spot) : Option (Char × Spot) := do
  let first ← percentByte? s.rest
  let count ← byteCount? first
  let (n, behind) ← moreBytes? (count - 1) first (s.steps 3)
  return (← codePoint? n, behind)

/-- Characters of a kind, those that are spelt by their bytes included. -/
def Spot.tagChars (kind : Char → Bool) : Nat → Spot → Option (List Char × Spot)
  | 0, _ => none
  | fuel + 1, s =>
    match s.rest with
    | [] => some ([], s)
    | c :: _ =>
      if c = '%' then do
        let (c, behind) ← s.percent
        let (more, finish) ← Spot.tagChars kind fuel behind
        return (c :: more, finish)
      else if kind c then do
        let (more, finish) ← Spot.tagChars kind fuel s.step
        return (c :: more, finish)
      else some ([], s)

/-- All characters of a kind. -/
def Spot.tagText (s : Spot) (kind : Char → Bool) : Option (List Char × Spot) :=
  Spot.tagChars kind (s.rest.length + 1) s

/-- What stands at a spot of the form of a handle, an exclamation mark first. -/
def Spot.handle (s : Spot) : List Char × Spot :=
  let word := s.step.rest.takeWhile isWordChar
  let behind := s.step.steps word.length
  match behind.rest with
  | '!' :: _ => ('!' :: word ++ ['!'], behind.step)
  | _ => ('!' :: word, behind)

/-- Whether some characters are a handle that has to be declared. -/
def isHandle (cs : List Char) : Bool := 2 ≤ cs.length && cs.getLast? = some '!'

/-- The tag at a spot as a handle and the rest of it, and the spot behind it. A tag in full has no
handle, and neither has a lone exclamation mark. -/
def Spot.tag (inBrackets : Bool) (s : Spot) : Option (String × String × Spot) := do
  let (handle, rest, finish) ← match s.rest with
    | '!' :: '<' :: _ => do
      let (cs, behind) ← (s.steps 2).tagText isUriChar
      if behind.rest.head? = some '>' then some ([], cs, behind.step) else none
    | _ =>
      let (front, behind) := s.handle
      do
        let (cs, finish) ← behind.tagText isTagChar
        if isHandle front then
          if cs.isEmpty then none else some (front, cs, finish)
        else
          let cs := front.drop 1 ++ cs
          if cs.isEmpty then some ([], ['!'], finish) else some (['!'], cs, finish)
  if spaceNext finish.rest || (inBrackets && markNext finish.rest) then
    some (String.ofList handle, String.ofList rest, finish)
  else none

/-! ### Directives -/

/-- What stands in front of a document. -/
inductive Directive where
  | version
  /-- What a handle stands for. -/
  | handle (name meaning : String)
  deriving DecidableEq, Repr

/-- The number of a version, of up to nine digits. -/
def Spot.versionPart (s : Spot) : Option Spot :=
  let digits := (s.rest.takeWhile Char.isDigit).length
  if digits = 0 || 9 < digits then none else some (s.steps digits)

/-- The version at a spot. -/
def Spot.version (s : Spot) : Option (Directive × Spot) := do
  let behind ← s.versionPart
  if behind.rest.head? = some '.' then
    return (.version, ← behind.step.versionPart)
  else none

/-- The declaration of a handle at a spot. -/
def Spot.declaration (s : Spot) : Option (Directive × Spot) := do
  if s.rest.head? ≠ some '!' then none
  let (name, behind) := s.handle
  if name ≠ ['!'] && !isHandle name then none
  let start := behind.past isBlank
  match start.rest with
  | [] => none
  | c :: _ => do
    if c ≠ '!' && !isTagChar c then none
    let (front, next) ← if c = '%' then start.percent else some (c, start.step)
    let (more, finish) ← next.tagText isUriChar
    if spaceNext finish.rest then
      some (.handle (String.ofList name) (String.ofList (front :: more)), finish)
    else none

/-- The directive at a spot, and the spot on the line below. An unknown one declares the empty
handle. -/
def Spot.directive (s : Spot) : Option (Directive × Spot) := do
  let name := s.step.rest.takeWhile isWordChar
  let behind := s.step.steps name.length
  if name.isEmpty || !spaceNext behind.rest then none
  let value := behind.past isBlank
  let (d, finish) ←
    if name = "YAML".toList then value.version
    else if name = "TAG".toList then value.declaration
    else some (.handle "" "", behind.lineEnd)
  let tail ← finish.pastTail
  if lineEnds tail.rest then some (d, tail.step) else none

end Dialogue.Yaml
