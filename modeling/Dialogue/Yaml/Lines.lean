import Dialogue.Yaml.Spot

/-!
# Texts in lines

A text in lines stands on the lines below its mark, indented: `|` keeps its line breaks and `>`
folds those between lines that do not begin with a blank. The mark may tell how the end is treated
and how far the lines are indented; otherwise the first line with content tells.
-/

namespace Dialogue.Yaml

/-- What is kept of the line breaks at the end of a text in lines. -/
inductive Chomp where
  /-- One line break. -/
  | clip
  /-- None of them. -/
  | strip
  /-- All of them. -/
  | keep
  deriving DecidableEq, Repr

/-- What the mark of a text in lines tells. -/
structure LinesMark where
  folded : Bool
  chomp : Chomp
  /-- By how much the lines are indented, if that is told. -/
  indent : Option Nat

/-- How the end is treated. -/
def chomp? : List Char → Option Chomp
  | '+' :: _ => some .keep
  | '-' :: _ => some .strip
  | _ => none

/-- The digit that comes next, which may not be zero. -/
def indentDigit? : List Char → Option (Option Nat)
  | c :: _ =>
    if c = '0' then none else if c.isDigit then some (some (c.toNat - '0'.toNat)) else some none
  | [] => some none

/-- How many characters an indication takes. -/
def widthOf {α : Type} (a : Option α) : Nat := if a.isSome then 1 else 0

/-- The indications behind `|` or `>`, in either order, and the spot behind them. -/
def linesMark? (folded : Bool) (s : Spot) : Option (LinesMark × Spot) := do
  match chomp? s.rest with
  | some chomp =>
    let indent ← indentDigit? s.step.rest
    return (⟨folded, chomp, indent⟩, s.step.steps (widthOf indent))
  | none =>
    let indent ← indentDigit? s.rest
    if indent.isNone then return (⟨folded, .clip, none⟩, s)
    let chomp := chomp? s.step.rest
    return (⟨folded, chomp.getD .clip, indent⟩, s.step.steps (widthOf chomp))

/-! ### Lines -/

/-- The spaces that indent a line, at most up to a column. -/
def Spot.pastIndent (s : Spot) (limit : Option Nat) : Spot :=
  let spaces := (s.rest.takeWhile (· = ' ')).length
  s.steps (match limit with
    | some column => min spaces (column - s.column)
    | none => spaces)

/-- What lies before a line with content. -/
structure Empty where
  breaks : Nat
  /-- The greatest column to which one of the lines, or the one with content, is indented. -/
  widest : Nat

/-- Skips lines without content, and the indentation of the next one. -/
def Spot.emptyLines (limit : Option Nat) : Nat → Empty → Spot → Empty × Spot
  | 0, e, s => (e, s)
  | fuel + 1, e, s =>
    let t := s.pastIndent limit
    let widest := max e.widest t.column
    match t.rest with
    | '\n' :: _ => Spot.emptyLines limit fuel ⟨e.breaks + 1, widest⟩ t.step
    | _ => (⟨e.breaks, widest⟩, t)

/-- What has been read of a text in lines. -/
structure Lines where
  /-- Its characters, the last one first. -/
  read : List Char
  /-- The last line with content has ended. -/
  ended : Bool
  /-- The line breaks behind it. -/
  breaks : Nat
  /-- The last line with content begins with a blank. -/
  blank : Bool

/-- What joins the next line to the text. -/
def Lines.joint (l : Lines) (folded blank : Bool) : List Char :=
  if folded && l.ended && !l.blank && !blank then
    if l.breaks = 0 then [' '] else List.replicate l.breaks '\n'
  else List.replicate (l.breaks + if l.ended then 1 else 0) '\n'

/-- One more line. -/
def Lines.add (l : Lines) (folded : Bool) (line : List Char) : Lines :=
  let blank := match line with
    | c :: _ => isBlank c
    | [] => false
  ⟨line.reverse ++ (l.joint folded blank ++ l.read), false, 0, blank⟩

/-- The lines indented to a column, from the content of the first of them. -/
def Lines.readOn (folded : Bool) (column : Nat) : Nat → Lines → Spot → Lines × Spot
  | 0, l, s => (l, s)
  | fuel + 1, l, s =>
    if s.column ≠ column || s.rest.isEmpty || (column = 0 && atMarker '.' s.rest) then (l, s)
    else
      let l := l.add folded (s.rest.takeWhile (· != '\n'))
      let t := s.lineEnd
      if t.rest.isEmpty then (l, t)
      else
        let (empty, next) := t.step.emptyLines (some column) (fuel + 1) ⟨0, 0⟩
        Lines.readOn folded column fuel { l with ended := true, breaks := empty.breaks } next

/-- The text with its end treated. -/
def Lines.chomped (l : Lines) (chomp : Chomp) (column : Nat) (finish : Spot) : List Char :=
  let lastBreak : List Char :=
    if chomp = .strip then []
    else List.replicate ((if l.ended then 1 else 0)
      + if finish.rest.isEmpty && max column 1 ≤ finish.column then 1 else 0) '\n'
  l.read.reverse ++ lastBreak ++ if chomp = .keep then List.replicate l.breaks '\n' else []

/-- A text in lines of which there is none; `breaks` lines without content follow its mark. -/
def noLines (chomp : Chomp) (markEnds : Bool) (breaks : Nat) : List Char :=
  if chomp = .strip || !markEnds then []
  else if chomp = .keep && 0 < breaks then List.replicate breaks '\n'
  else ['\n']

/-- The text in lines whose mark stands at a spot, nested in a column, and the spot behind it. -/
def linesText (folded : Bool) (indent : Int) (s : Spot) : Option (String × Spot) := do
  let (mark, behind) ← linesMark? folded s.step
  let tail ← behind.pastTail
  if !lineEnds tail.rest then none
  let below := tail.step
  if below.rest.head? = some '\t' then none
  let given := mark.indent.map fun n => (max indent 0).toNat + n
  let (empty, first) := below.emptyLines given (below.rest.length + 1) ⟨0, 0⟩
  let column := given.getD (max empty.widest (indent + 1).toNat)
  if first.rest.isEmpty then
    let text := noLines mark.chomp (first.line ≠ s.line) empty.breaks
    return (String.ofList text, first)
  if first.column < column && indent < first.column then none
  let (l, finish) :=
    Lines.readOn folded column (first.rest.length + 1) ⟨[], false, empty.breaks, false⟩ first
  return (String.ofList (l.chomped mark.chomp column finish), finish)

end Dialogue.Yaml
