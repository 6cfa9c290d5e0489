import Dialogue.Yaml.Spot

/-!
# Quoted texts

Between single quotes only a quote needs care: it is written twice. Between double quotes a
backslash begins an escape. Line breaks fold to blanks, as in plain texts, but for one behind a
backslash, which vanishes with the blanks around it.
-/

namespace Dialogue.Yaml

/-! ### Escapes -/

/-- The value of a digit in bases up to sixteen. -/
def digit? (c : Char) : Option Nat :=
  if '0' ≤ c && c ≤ '9' then some (c.toNat - '0'.toNat)
  else if 'a' ≤ c && c ≤ 'f' then some (c.toNat - 'a'.toNat + 10)
  else if 'A' ≤ c && c ≤ 'F' then some (c.toNat - 'A'.toNat + 10)
  else none

/-- The number that digits of a base spell, behind a number that has been read. -/
def digitsFrom? (base : Nat) : Nat → List Char → Option Nat
  | n, [] => some n
  | n, c :: cs =>
    match digit? c with
    | some d => if d < base then digitsFrom? base (base * n + d) cs else none
    | none => none

/-- The character of a code point. -/
def codePoint? (n : Nat) : Option Char :=
  if n < 0xd800 || (0xdfff < n && n < 0x110000) then some (Char.ofNat n) else none

/-- The character that some hexadecimal digits name, and how many characters that takes. -/
def hexEscape? (width : Nat) (cs : List Char) : Option (Char × Nat) := do
  let digits := cs.take width
  if digits.length < width then none
  let c ← codePoint? (← digitsFrom? 16 0 digits)
  return (c, width + 1)

/-- What an escape stands for, and how many characters it has behind the backslash. -/
def escape? (c : Char) (behind : List Char) : Option (Char × Nat) :=
  match c with
  | '0' => some ('\x00', 1)
  | 'a' => some ('\x07', 1)
  | 'b' => some ('\x08', 1)
  | 't' => some ('\t', 1)
  | '\t' => some ('\t', 1)
  | 'n' => some ('\n', 1)
  | 'v' => some ('\x0b', 1)
  | 'f' => some ('\x0c', 1)
  | 'r' => some ('\r', 1)
  | 'e' => some ('\x1b', 1)
  | ' ' => some (' ', 1)
  | '"' => some ('"', 1)
  | '/' => some ('/', 1)
  | '\\' => some ('\\', 1)
  | 'N' => some ('\u0085', 1)
  | '_' => some ('\u00a0', 1)
  | 'L' => some ('\u2028', 1)
  | 'P' => some ('\u2029', 1)
  | 'x' => hexEscape? 2 behind
  | 'u' => hexEscape? 4 behind
  | 'U' => hexEscape? 8 behind
  | _ => none

/-! ### Texts -/

/-- What stands between the last character of a quoted text and the next one. -/
structure Fold where
  /-- Blanks on the same line, the last one first. -/
  blanks : List Char
  breaks : Nat
  /-- A line break that a backslash hides stands before. -/
  hidden : Bool

/-- Nothing between two characters. -/
def Fold.none : Fold := ⟨[], 0, false⟩

/-- Whether a line has ended. -/
def Fold.broke (f : Fold) : Bool := f.hidden || 0 < f.breaks

/-- One more blank; those that indent a line do not count. -/
def Fold.blank (f : Fold) (c : Char) : Fold :=
  if f.broke then f else { f with blanks := c :: f.blanks }

/-- One more line break. -/
def Fold.newLine (f : Fold) : Fold := ⟨[], f.breaks + 1, f.hidden⟩

/-- What becomes of it inside the text. -/
def Fold.folded (f : Fold) : List Char :=
  if f.hidden then List.replicate f.breaks '\n'
  else if f.breaks = 0 then f.blanks.reverse
  else joint f.breaks

/-- Where a quoted text stands. -/
structure QuotedPlace where
  quote : Char
  inBrackets : Bool
  /-- The column that the text is nested in. -/
  indent : Int

/-- Whether a character may stand where it does: outside brackets a further line has to be indented,
unless the text ends there, and a document may not end inside a text. -/
def QuotedPlace.admits (p : QuotedPlace) (f : Fold) (s : Spot) (c : Char) : Bool :=
  !(s.column = 0 && atDocumentMarker s.rest)
    && (p.inBrackets || f.hidden || f.breaks = 0 || c = p.quote || p.indent < s.column)

/-- The characters of a quoted text up to its closing quote, and the spot behind that. -/
def QuotedPlace.chars (p : QuotedPlace) : Nat → Fold → Spot → Option (List Char × Spot)
  | 0, _, _ => none
  | fuel + 1, f, s =>
    match s.rest with
    | [] => none
    | c :: rest =>
      if c = '\n' then p.chars fuel f.newLine s.step
      else if isBlank c then
        if f.broke && c = '\t' && s.column < p.indent then none
        else p.chars fuel (f.blank c) s.step
      else if !p.admits f s c then none
      else if c = p.quote then
        if c = '\'' && rest.head? = some '\'' then do
          let (more, finish) ← p.chars fuel .none (s.steps 2)
          return (f.folded ++ '\'' :: more, finish)
        else some (f.folded, s.step)
      else if c = '\\' && p.quote = '"' then
        match rest with
        | [] => none
        | '\n' :: _ => do
          let (more, finish) ← p.chars fuel ⟨[], 0, true⟩ (s.steps 2)
          return (f.folded ++ more, finish)
        | e :: behind => do
          let (e, width) ← escape? e behind
          let (more, finish) ← p.chars fuel .none (s.steps (width + 1))
          return (f.folded ++ e :: more, finish)
      else do
        let (more, finish) ← p.chars fuel .none s.step
        return (f.folded ++ c :: more, finish)

/-- Whether a quoted text may be followed by what stands at a spot: the end of the line, what goes
on in brackets or, on the line where it began, the colon of a key. -/
def QuotedPlace.mayEndAt (p : QuotedPlace) (start finish : Spot) : Bool :=
  match finish.rest with
  | [] => true
  | c :: _ =>
    c = '\n'
      || (p.inBrackets && (c = ',' || c = ']' || c = '\x7d' || c = ':'))
      || (c = ':' && start.line = finish.line)

/-- The quoted text at a spot, and the spot behind it and what may close its line. -/
def QuotedPlace.read (p : QuotedPlace) (s : Spot) : Option (String × Spot) := do
  let (cs, behind) ← p.chars (s.rest.length + 1) .none s.step
  let finish ← behind.pastTail
  if p.mayEndAt s finish then some (String.ofList cs, finish) else none

end Dialogue.Yaml
