import Dialogue.Yaml.Spot

/-!
# Plain texts

A plain text has no quotes. It ends at a colon before a blank, at a comment and, inside brackets, at
a mark that structures them. It may run over several lines as long as they are indented enough; the
line breaks in it fold to blanks. Blanks at its end do not belong to it.
-/

namespace Dialogue.Yaml

/-- Where a plain text stands. -/
structure PlainPlace where
  inBrackets : Bool
  /-- The least column of a further line. -/
  indent : Int

/-- What stands between the last character of a text and the next one. -/
structure Pending where
  /-- Blanks on the same line, the last one first. -/
  blanks : List Char
  breaks : Nat
  /-- A comment has begun on this line. -/
  comment : Bool
  /-- A tab stands where the line has to be indented, so that no content may follow. -/
  tab : Bool

/-- Nothing between two characters. -/
def Pending.none : Pending := ⟨[], 0, false, false⟩

/-- One more line break. -/
def Pending.newLine (p : Pending) : Pending := ⟨[], p.breaks + 1, false, false⟩

/-- What becomes of it inside the text. -/
def Pending.folded (p : Pending) : List Char :=
  if p.breaks = 0 then p.blanks.reverse else joint p.breaks

/-- Whether a character can belong to a plain text. -/
def continuesPlain (inBrackets : Bool) (c : Char) (behind : List Char) : Bool :=
  if c = ':' then !(spaceNext behind || (inBrackets && markNext behind))
  else !(inBrackets && isBracketMark c)

/-- Whether a text breaks off before a word: a further line is not indented enough, the word is a
document marker at the beginning of its line, or a comment begins. -/
def PlainPlace.breaksOff (p : PlainPlace) (isFirst : Bool) (s : Spot) (c : Char)
    (cs : List Char) : Bool :=
  (!isFirst && !p.inBrackets && s.column < p.indent)
    || (s.fresh && atDocumentMarker (c :: cs)) || c = '#'

/-- Walks over a plain text whose characters so far are `read`, the last one first. `inWord` tells
that the character before belongs to the text. -/
def PlainPlace.walk (p : PlainPlace) (inWord : Bool) (between : Pending) (read : List Char)
    (s : Spot) : List Char → Option (List Char × Spot)
  | [] => some (read, s)
  | c :: cs =>
    if c = '\n' then p.walk false between.newLine read s.step cs
    else if between.comment then p.walk false between read s.step cs
    else if isBlank c then
      if 0 < between.breaks then
        let tab := between.tab || (c = '\t' && s.column < p.indent)
        p.walk false { between with tab := tab } read s.step cs
      else p.walk false { between with blanks := c :: between.blanks } read s.step cs
    else if between.tab then
      if c = '#' then p.walk false { between with comment := true } read s.step cs else none
    else if !inWord && p.breaksOff read.isEmpty s c cs then some (read, s)
    else if !inWord && p.inBrackets && c = '-' && markNext cs then none
    else if continuesPlain p.inBrackets c cs then
      p.walk true .none (c :: (between.folded.reverse ++ read)) s.step cs
    else some (read, s)

/-- The plain text at a spot, and the spot behind it and the blanks that follow. -/
def PlainPlace.read (p : PlainPlace) (s : Spot) : Option (String × Spot) := do
  if p.inBrackets && s.column < p.indent then none
  let (read, finish) ← p.walk false .none [] s s.rest
  if read.isEmpty then none else some (String.ofList read.reverse, finish)

end Dialogue.Yaml
