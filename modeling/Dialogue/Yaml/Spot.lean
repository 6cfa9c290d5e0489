/-!
# Places in a YAML document

A `Spot` is a place in a document together with what is still to be read. This module also says
which characters structure a document and how the way to the next content is skipped: over blanks,
comments and line breaks. A comment begins with `#` and runs to the end of its line.
-/

namespace Dialogue.Yaml

/-- A place in a document. -/
structure Spot where
  /-- What is still to be read. -/
  rest : List Char
  line : Nat
  column : Nat
  /-- The number of bytes before it. -/
  index : Nat
  /-- Nothing but blanks stands before it on its line. -/
  fresh : Bool

/-! ### Characters -/

/-- A blank within a line. -/
def isBlank (c : Char) : Bool := c = ' ' || c = '\t'

/-- A blank or a line break. -/
def isSpace (c : Char) : Bool := isBlank c || c = '\n'

/-- The characters that structure collections in brackets. -/
def isBracketMark (c : Char) : Bool :=
  c = ',' || c = '[' || c = ']' || c = '\x7b' || c = '\x7d'

/-- An ASCII letter or digit, `-` or `_`. -/
def isWordChar (c : Char) : Bool := c.isAlphanum || c = '-' || c = '_'

/-- Whether a text ends or goes on with a blank or a line break. -/
def spaceNext : List Char → Bool
  | [] => true
  | c :: _ => isSpace c

/-- Whether the line ends here. -/
def lineEnds : List Char → Bool
  | [] => true
  | c :: _ => c = '\n'

/-- Whether a text goes on with a mark of collections in brackets. -/
def markNext : List Char → Bool
  | [] => false
  | c :: _ => isBracketMark c

/-- Whether three equal characters stand here by themselves. -/
def atMarker (c : Char) (cs : List Char) : Bool := cs.take 3 = [c, c, c] && spaceNext (cs.drop 3)

/-- Whether a line begins or ends a document. -/
def atDocumentMarker (cs : List Char) : Bool := atMarker '-' cs || atMarker '.' cs

/-- Line breaks of every kind as one character. -/
def unifyBreaks : List Char → List Char
  | [] => []
  | '\r' :: '\n' :: rest => '\n' :: unifyBreaks rest
  | '\r' :: rest => '\n' :: unifyBreaks rest
  | c :: rest => c :: unifyBreaks rest

/-- What line breaks inside a text amount to: one of them to a blank, and each further one to a line
break. -/
def joint (breaks : Nat) : List Char :=
  if breaks ≤ 1 then List.replicate breaks ' ' else List.replicate (breaks - 1) '\n'

namespace Spot

/-- The beginning of a text. A byte order mark is left out, and a NUL ends the text. -/
def start (text : String) : Spot :=
  let cs := text.toList
  let cs := if cs.head? = some '\ufeff' then cs.drop 1 else cs
  ⟨unifyBreaks (cs.takeWhile (· != '\x00')), 0, 0, 0, true⟩

/-- One character further. -/
def step (s : Spot) : Spot :=
  match s.rest with
  | [] => s
  | c :: rest =>
    if c = '\n' then ⟨rest, s.line + 1, 0, s.index + 1, true⟩
    else ⟨rest, s.line, s.column + 1, s.index + c.utf8Size, s.fresh && isBlank c⟩

/-- Some characters further. -/
def steps (s : Spot) : Nat → Spot
  | 0 => s
  | n + 1 => s.step.steps n

/-- Past the characters of a kind. -/
def past (s : Spot) (kind : Char → Bool) : Spot := s.steps (s.rest.takeWhile kind).length

/-- The end of the line. -/
def lineEnd (s : Spot) : Spot := s.past (· != '\n')

/-- Past blanks and a comment on the same line. A comment that no blank sets off is none. -/
def pastTail (s : Spot) : Option Spot :=
  let t := s.past isBlank
  match t.rest with
  | '#' :: _ => if t.column = s.column then none else some t.lineEnd
  | _ => some t

/-- What is known on the way to the next content. -/
structure Gap where
  /-- A line has ended. -/
  broke : Bool
  /-- A comment has begun on this line. -/
  comment : Bool
  /-- A tab stands where the line has to be indented, so that no content may follow. -/
  tab : Bool

/-- Walks on to the next content. Tabs may not indent a line to less than `indent`. -/
def gapOver (indent : Int) (g : Gap) (s : Spot) : List Char → Option (Spot × Bool)
  | [] => some (s, g.broke)
  | c :: cs =>
    if c = '\n' then gapOver indent ⟨true, false, false⟩ s.step cs
    else if g.comment || c = ' ' then gapOver indent g s.step cs
    else if c = '\t' then
      gapOver indent { g with tab := g.tab || (s.fresh && s.column < indent) } s.step cs
    else if c = '#' then gapOver indent { g with comment := true } s.step cs
    else if g.tab then none
    else some (s, g.broke)

/-- The next content, and whether it stands on a further line. -/
def gap (s : Spot) (indent : Int) : Option (Spot × Bool) :=
  gapOver indent ⟨false, false, false⟩ s s.rest

end Spot

end Dialogue.Yaml
