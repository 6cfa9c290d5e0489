import Dialogue.Yaml.Lines
import Dialogue.Yaml.Plain
import Dialogue.Yaml.Token

/-!
# The layout of a YAML document

Indentation tells where the lists and maps of a document begin and end. `Layout` is what is known at
a spot: the columns of the open levels, the brackets that are open and, for each of them, where a
key may have begun; for a colon makes a key of what stands before it. So the tokens behind a
possible key are held back until the colon is found or cannot follow any more.

`Layout.tokens` is the list of all tokens. It ends with `Token.textEnd` exactly if the layout is
sound; otherwise it breaks off.
-/

namespace Dialogue.Yaml

/-- A column that content has to reach. -/
structure Level where
  column : Int
  /-- A list or map begins here; otherwise the level only makes room for one value. -/
  isCollection : Bool

/-- What may turn out to be a key. -/
structure Candidate where
  line : Nat
  column : Nat
  index : Nat
  /-- The number of its first token. -/
  token : Nat
  /-- It stands where only a key can stand. -/
  required : Bool

/-- What is known at a spot. -/
structure Layout where
  spot : Spot
  /-- The open levels, the innermost first. -/
  levels : List Level
  /-- What may be a key, inside the innermost brackets. -/
  candidate : Option Candidate
  /-- What may be a key around each pair of open brackets, the innermost first. -/
  around : List (Option Candidate)
  /-- A key may begin here. -/
  keyAllowed : Bool
  /-- A brace or a marked key has been met, so that no pair has to be made up in a list. -/
  mapOpened : Bool
  /-- For each open list in brackets, the innermost first, the number of open brackets around the
  pair that has been made up in it, if any. -/
  pairs : List (Option Nat)
  /-- The place where a colon needs no blank behind it. -/
  adjacent : Option Nat
  /-- Tokens held back. -/
  queue : List Token
  /-- The number of tokens handed on. -/
  handedOn : Nat

namespace Layout

/-- The layout at the beginning of a text. -/
def start (text : String) : Layout :=
  ⟨Spot.start text, [], none, [], true, false, [], none, [], 0⟩

/-- Whether brackets are open. -/
def inBrackets (l : Layout) : Bool := !l.around.isEmpty

/-- The column of the innermost level; -1 outside all. -/
def indent (l : Layout) : Int :=
  match l.levels with
  | [] => -1
  | level :: _ => level.column

/-- Whether the innermost level is that of a list or map. -/
def inCollection (l : Layout) : Bool :=
  match l.levels with
  | [] => false
  | level :: _ => level.isCollection

/-- One more token. -/
def put (l : Layout) (t : Token) : Layout := { l with queue := l.queue ++ [t] }

/-- A token put before the one of a number. -/
def putAt (l : Layout) (number : Nat) (t : Token) : Layout :=
  { l with queue := l.queue.insertIdx (number - l.handedOn) t }

/-- The layout at another spot. -/
def goTo (l : Layout) (s : Spot) : Layout := { l with spot := s }

/-- Whether a key may begin here. -/
def allowKey (l : Layout) (allowed : Bool) : Layout := { l with keyAllowed := allowed }

/-! ### Levels -/

/-- The levels that remain when those beyond a column are closed, and how many of the closed ones
are of lists and maps. -/
def closeBeyond (column : Int) : List Level → List Level × Nat
  | [] => ([], 0)
  | level :: more =>
    if column < level.column then
      let (left, closed) := closeBeyond column more
      (left, if level.isCollection then closed + 1 else closed)
    else (level :: more, 0)

/-- Closes the levels beyond a column; inside brackets indentation closes nothing. -/
def closeLevels (l : Layout) (column : Int) : Layout :=
  if l.inBrackets then l
  else
    let (levels, closed) := closeBeyond column l.levels
    { l with levels := levels, queue := l.queue ++ List.replicate closed .blockEnd }

/-- One more level. -/
def openAt (l : Layout) (level : Level) : Layout := { l with levels := level :: l.levels }

/-- Gives up the room that has been made for a value. -/
def dropRoom (l : Layout) : Layout := { l with levels := l.levels.dropWhile (!·.isCollection) }

/-- Makes room for a value, one column further in. -/
def makeRoom (l : Layout) : Layout :=
  if !l.inBrackets && l.inCollection then l.openAt ⟨l.indent + 1, false⟩ else l

/-- Gives up the innermost level if it was only made for a value, unless it lies beyond a column. -/
def reuseRoom (l : Layout) (column : Nat) : Layout :=
  match l.levels with
  | [] => l
  | level :: more =>
    if level.isCollection || column < level.column then l else { l with levels := more }

/-- Opens a list or map at a column unless one is open there; its token stands before the one of a
number. -/
def openLevel (l : Layout) (column number : Nat) (t : Token) : Layout :=
  if l.inBrackets then l
  else
    let l := l.reuseRoom column
    if l.indent < column then (l.openAt ⟨column, true⟩).putAt number t else l

/-- The number of the next token. -/
def nextNumber (l : Layout) : Nat := l.handedOn + l.queue.length

/-! ### Possible keys -/

/-- Notes that a key may begin here. -/
def noteCandidate (l : Layout) : Layout :=
  if l.keyAllowed then
    let s := l.spot
    let required := !l.inBrackets && l.indent = s.column && l.inCollection
    let k : Candidate := ⟨s.line, s.column, s.index, l.nextNumber, required⟩
    { l with candidate := some k }
  else l

/-- No key has begun, unless one is required. -/
def dropCandidate (l : Layout) : Option Layout :=
  if l.candidate.any (·.required) then none else some { l with candidate := none }

/-- Outside brackets a key has to end on its line and within 1024 bytes. -/
def expireCandidate (l : Layout) : Option Layout :=
  let expired := l.candidate.any fun k => k.line < l.spot.line || k.index + 1024 < l.spot.index
  if !l.inBrackets && expired then l.dropCandidate else some l

/-- Whether the next token has to be held back. -/
def holdsBack (l : Layout) : Bool :=
  (l.candidate :: l.around).any fun k => k.any (·.token = l.handedOn)

/-- Past blanks and a comment. -/
def pastTail (l : Layout) : Option Layout := (l.spot.pastTail).map l.goTo

/-- On to the next content. On a new line a key may begin, but inside brackets. -/
def toContent (l : Layout) : Option Layout := do
  let (s, broke) ← l.spot.gap l.indent
  return { l with spot := s, keyAllowed := l.keyAllowed || (broke && !l.inBrackets) }

/-! ### Brackets -/

/-- Ends the pair that has been made up in the innermost list, if it stands directly in it. -/
def endPair (l : Layout) : Layout :=
  match l.pairs with
  | some depth :: more =>
    if depth = l.around.length then
      { l with mapOpened := false, pairs := none :: more }.put .closeBrace
    else l
  | _ => l

/-- A bracket or brace opens. -/
def openBrackets (l : Layout) (isList : Bool) : Option Layout := do
  if 255 ≤ l.around.length then none
  let l := l.noteCandidate.makeRoom
  let l := { l with around := l.candidate :: l.around, candidate := none, keyAllowed := true }
  let l := if isList then { l with pairs := none :: l.pairs } else { l with mapOpened := true }
  let l ← (l.goTo l.spot.step).pastTail
  return l.put (if isList then .openBracket else .openBrace)

/-- A bracket or brace closes. -/
def closeBrackets (l : Layout) (isList : Bool) : Option Layout :=
  match l.around with
  | [] => none
  | outer :: more => do
    let l ← l.dropCandidate
    let l := if isList then { l.endPair with pairs := l.pairs.drop 1 } else l
    let l := { l with candidate := outer, around := more, keyAllowed := false }
    let l ← (l.goTo l.spot.step).pastTail
    let l := if l.inBrackets then { l with adjacent := some l.spot.index } else l
    return l.put (if isList then .closeBracket else .closeBrace)

/-- A comma. -/
def comma (l : Layout) : Option Layout := do
  let l := ((← l.dropCandidate).allowKey true).endPair
  let l ← (l.goTo l.spot.step).pastTail
  return l.put .comma

/-! ### Items, keys and values -/

/-- A dash. -/
def item (l : Layout) : Option Layout := do
  if l.inBrackets || !l.keyAllowed then none
  if l.queue.getLast?.any (·.isOutdented) && l.spot.column = 0 && -1 < l.indent then none
  let opened := (l.goTo l.spot.step).openLevel l.spot.column l.nextNumber .list
  let tabbed := (opened.spot.rest.takeWhile isBlank).contains '\t'
  let l ← opened.pastTail
  let dashNext := match l.spot.rest with
    | '-' :: behind => spaceNext behind
    | _ => false
  if tabbed && dashNext then none
  let l := if l.spot.rest.head? = some '\n' || markNext l.spot.rest then l.makeRoom else l
  return ((← l.dropCandidate).allowKey true).put .item

/-- The content behind the mark of a key. A space or a line break has to come first, and no tab may
come before the content. -/
def pastKeyMark (s : Spot) : Option Spot :=
  if s.rest.head? = some ' ' || s.rest.head? = some '\n' then go false s s.rest else none
where
  /-- Walks on; `comment` tells that a comment has begun on the line. -/
  go (comment : Bool) (s : Spot) : List Char → Option Spot
    | [] => some s
    | c :: cs =>
      if c = '\n' then go false s.step cs
      else if comment || c = ' ' then go comment s.step cs
      else if c = '#' then go true s.step cs
      else if c = '\t' then none
      else some s

/-- The mark of a key. -/
def key (l : Layout) : Option Layout := do
  if !l.inBrackets && !l.keyAllowed then none
  let opened := if l.inBrackets then { l with mapOpened := true }
    else l.openLevel l.spot.column l.nextNumber .map
  let l ← opened.dropCandidate
  let s ← pastKeyMark l.spot.step
  return ((l.goTo s).allowKey (!l.inBrackets)).put .key

/-- Past the blanks behind a colon, if a tab comes first. Without a space among them no word may
follow. -/
def pastColonTab (l : Layout) : Option Layout :=
  if l.spot.rest.head? = some '\t' then do
    let spaced := (l.spot.rest.takeWhile isBlank).contains ' '
    let l ← l.pastTail
    if !spaced && l.spot.rest.head?.any isWordChar then none else some l
  else some l

/-- A colon behind a key that has been noted. In a list in brackets the two make up a pair. -/
def valueOf (l : Layout) (k : Candidate) (makesPair : Bool) : Layout :=
  let l := l.putAt k.token .key
  let l := if makesPair then l.putAt k.token .openBrace else l
  let l := (l.openLevel k.column k.token .map).makeRoom
  { l with candidate := none, keyAllowed := false }.put .value

/-- A colon behind a marked key or none, at a column. -/
def valueAlone (l : Layout) (column : Nat) (makesPair : Bool) : Option Layout :=
  let l := if makesPair then l.put .openBrace else l
  if l.inBrackets then some ((l.allowKey false).put .value)
  else if l.keyAllowed then
    some (((l.openLevel column l.nextNumber .map).makeRoom.allowKey true).put .value)
  else none

/-- A colon. -/
def value (l : Layout) : Option Layout := do
  let colon := l.spot
  let makesPair := !l.pairs.isEmpty && !l.mapOpened
  let l := if makesPair then { l with pairs := some l.around.length :: l.pairs.drop 1 } else l
  let l ← (l.goTo colon.step).pastColonTab
  match l.candidate with
  | some k => if makesPair && k.line < colon.line then none else some (l.valueOf k makesPair)
  | none => l.valueAlone colon.column makesPair

/-! ### Texts, names and tags -/

/-- A text without quotes. -/
def plain (l : Layout) : Option Layout := do
  let l := l.noteCandidate.dropRoom
  let (text, finish) ← PlainPlace.read ⟨l.inBrackets, l.indent + 1⟩ l.spot
  return ((l.goTo finish).allowKey finish.fresh).put (.scalar .plain text)

/-- A text in quotes. A colon may follow it directly. -/
def quoted (l : Layout) (quote : Char) : Option Layout := do
  let l := l.noteCandidate.allowKey false
  let (text, finish) ← QuotedPlace.read ⟨quote, l.inBrackets, l.indent⟩ l.spot
  let l ← (l.goTo finish).toContent
  return { l with adjacent := some l.spot.index }.put (.scalar .quoted text)

/-- A text in lines. -/
def lines (l : Layout) (folded : Bool) : Option Layout := do
  let l := l.noteCandidate.dropRoom
  let (text, finish) ← linesText folded l.indent l.spot
  return ((l.goTo finish).allowKey true).put (.scalar .lines text)

/-- An alias. -/
def aliasOf (l : Layout) : Option Layout := do
  let (name, finish) ← l.spot.step.name
  return ((l.noteCandidate.goTo finish).allowKey false).put (.aliasOf name)

/-- An anchor. -/
def anchor (l : Layout) : Option Layout := do
  let (name, finish) ← l.spot.step.name
  return ((l.noteCandidate.goTo finish).allowKey false).put (.anchor name (l.spot.column = 0))

/-- A tag. -/
def tag (l : Layout) : Option Layout := do
  let (handle, rest, finish) ← l.spot.tag l.inBrackets
  return ((l.noteCandidate.goTo finish).allowKey false).put
    (.tag handle rest (l.spot.column = 0))

/-! ### Documents -/

/-- The layout outside all levels. -/
def closeAll (l : Layout) : Option Layout := do
  return (← (l.closeLevels (-1)).dropCandidate).allowKey false

/-- A directive. -/
def directive (l : Layout) : Option Layout := do
  let (d, finish) ← l.spot.directive
  return ((← l.closeAll).goTo finish).put (.directive d)

/-- A line that begins a document. -/
def documentStart (l : Layout) : Option Layout := do
  if l.inBrackets then none
  return ((← l.closeAll).goTo (l.spot.steps 3)).put .documentStart

/-- A line that ends a document; nothing else may stand on it. -/
def documentEnd (l : Layout) : Option Layout := do
  if l.inBrackets then none
  let l ← (((← l.closeAll).goTo (l.spot.steps 3)).put .documentEnd).pastTail
  if lineEnds l.spot.rest then some l else none

/-- The end of the text. -/
def textEnd (l : Layout) : Option Layout := do
  if l.inBrackets then none
  return (← l.closeAll).put .textEnd

/-! ### All tokens -/

/-- What a colon inside brackets is, when no blank follows: a colon that divides key and value
before a mark or directly behind a quoted text or a bracket, otherwise part of a plain text. -/
def bracketColon (l : Layout) (behind : List Char) : Option Layout :=
  let adjacent := l.adjacent = some l.spot.index
  if !adjacent && !markNext behind then l.plain
  else if !adjacent && (behind.head? = some '[' || behind.head? = some '\x7b') then none
  else l.value

/-- The tokens that begin with a character. -/
def content (l : Layout) (c : Char) (behind : List Char) : Option Layout :=
  match c with
  | '[' => l.openBrackets true
  | '\x7b' => l.openBrackets false
  | ']' => l.closeBrackets true
  | '\x7d' => l.closeBrackets false
  | ',' => l.comma
  | '-' => if spaceNext behind then l.item else l.plain
  | '?' => if spaceNext behind then l.key else l.plain
  | ':' =>
    if spaceNext behind then l.value
    else if l.inBrackets then l.bracketColon behind
    else l.plain
  | '*' => l.aliasOf
  | '&' => l.anchor
  | '!' => l.tag
  | '|' => if l.inBrackets then l.plain else l.lines false
  | '>' => if l.inBrackets then l.plain else l.lines true
  | '\'' => l.quoted c
  | '"' => l.quoted c
  | '%' => none
  | '@' => none
  | '\x60' => none
  | _ => l.plain

/-- Whether content that begins with a character may stand this far out. -/
def mayStandAt (l : Layout) (c : Char) : Bool :=
  l.indent ≤ l.spot.column || (l.inBrackets && (c = ']' || c = '\x7d' || c = ','))

/-- The layout behind the next content, whose tokens are added. -/
def advance (l : Layout) : Option Layout := do
  let l ← (← l.toContent).expireCandidate
  let l := l.closeLevels l.spot.column
  match l.spot.rest with
  | [] => l.textEnd
  | c :: behind =>
    let outermost := l.spot.column = 0
    if outermost && c = '%' then l.directive
    else if outermost && atMarker '-' l.spot.rest then l.documentStart
    else if outermost && atMarker '.' l.spot.rest then l.documentEnd
    else if l.mayStandAt c then l.content c behind
    else none

/-- The layout once the next token need not be held back any more. -/
def ripen : Nat → Layout → Option Layout
  | 0, _ => none
  | fuel + 1, l =>
    if l.queue.isEmpty then do ripen fuel (← l.advance)
    else do
      let l ← l.expireCandidate
      if l.holdsBack then ripen fuel (← l.advance) else some l

/-- The tokens from here on, each as soon as it need not be held back. -/
def tokensFrom : Nat → Layout → List Token
  | 0, _ => []
  | fuel + 1, l =>
    match l.ripen (fuel + 1) with
    | none => []
    | some l =>
      match l.queue with
      | [] => []
      | .textEnd :: _ => [.textEnd]
      | t :: more => t :: tokensFrom fuel { l with queue := more, handedOn := l.handedOn + 1 }

/-- The tokens of a text. On average no character makes more than a few of them. -/
def tokens (text : String) : List Token :=
  let l := start text
  tokensFrom (8 * l.spot.rest.length + 32) l

end Layout

end Dialogue.Yaml
