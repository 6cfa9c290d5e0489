import Dialogue.Json.Literal
import Dialogue.Json.Number

/-!
# Reading and skipping untyped JSON text

`Reader.any` reads a value of any kind; containers nest up to a given depth, and a repeated key of
an object keeps its first place and its last value. `Reader.skipValue` skips a value and looks at
its syntax only: no depth limit, no range of numbers, no pairing of surrogates.
-/

namespace Dialogue.Json

/-- Containers may nest one less than this. -/
def depthLimit : Nat := 128

/-- A bracket that is still open while a value is skipped. -/
inductive Opened where
  | list
  | object
  deriving DecidableEq

namespace Reader

/-- The items of a list up to its bracket. -/
def items {α : Type} (item : Reader α) : Nat → Bool → List α → Reader (List α)
  | 0, _, read => pure read.reverse
  | fuel + 1, first, read => do
    if ← hasItem first then
      let a ← item
      items item fuel false (a :: read)
    else pure read.reverse

/-- The entries of an object up to its brace, each added to what has been read. -/
def entries {α : Type} (entry : α → Reader α) : Nat → Bool → α → Reader α
  | 0, _, read => pure read
  | fuel + 1, first, read => do
    if ← hasEntry first then
      let next ← entry read
      entries entry fuel false next
    else pure read

/-- A key, whose quote comes next. -/
def key (fuel : Nat) : Reader String := do
  skip
  stringRest fuel

/-- A value of any kind, containers nesting less than `depth` deep. -/
def any (fuel : Nat) : Nat → Reader Json
  | 0 => failAtNext .tooDeep
  | depth + 1 => do
    match ← peekToken with
    | none => failAtNext .endInValue
    | some 'n' => do skip; word ['u', 'l', 'l']; pure .null
    | some 't' => do skip; word ['r', 'u', 'e']; pure (.bool true)
    | some 'f' => do skip; word ['a', 'l', 's', 'e']; pure (.bool false)
    | some '"' => do skip; return .string (← stringRest fuel)
    | some '[' =>
      if depth = 0 then failAtNext .tooDeep
      else do
        skip
        return .array (← closedBy (items (any fuel depth) fuel true []) endList)
    | some '\x7b' =>
      if depth = 0 then failAtNext .tooDeep
      else do
        skip
        let entry (read : Entries) : Reader Entries := do
          let k ← key fuel
          colon
          let v ← any fuel depth
          pure (read.put k v)
        return .object (← closedBy (entries entry fuel true []) endObject)
    | some c => if c = '-' || c.isDigit then number else failAtNext .expectedValue

/-- Skips a value without containers, or opens a container. -/
def skipToken (fuel : Nat) : Reader (Option Opened) := do
  match ← peekToken with
  | none => failAtNext .endInValue
  | some 'n' => do skip; word ['u', 'l', 'l']; pure none
  | some 't' => do skip; word ['r', 'u', 'e']; pure none
  | some 'f' => do skip; word ['a', 'l', 's', 'e']; pure none
  | some '"' => do skip; skipStringRest fuel; pure none
  | some '[' => do skip; pure (some .list)
  | some '\x7b' => do skip; pure (some .object)
  | some '-' => do skip; skipUnsigned; pure none
  | some c => if c.isDigit then do skipUnsigned; pure none else failAtNext .expectedValue

/-- Closes containers after a value, or before a first one; what is left open when another value has
to follow. -/
def skipClosings : List Opened → Bool → Reader (List Opened)
  | [], _ => pure []
  | opened :: outer, afterValue => do
    match ← peekToken, opened with
    | some ']', .list => do skip; skipClosings outer true
    | some '\x7d', .object => do skip; skipClosings outer true
    | some ',', _ =>
      if afterValue then do skip; pure (opened :: outer)
      else pure (opened :: outer)
    | some _, .list => if afterValue then failAtNext .expectedListEnd else pure (opened :: outer)
    | some _, .object =>
      if afterValue then failAtNext .expectedObjectEnd else pure (opened :: outer)
    | none, .list => failAtNext .endInList
    | none, .object => failAtNext .endInObject

/-- Skips the key and the colon in front of an entry's value. -/
def skipKey (fuel : Nat) : Reader Unit := do
  match ← peekToken with
  | some '"' => do skip; skipStringRest fuel; colon
  | some _ => failAtNext .keyNotString
  | none => failAtNext .endInObject

/-- Skips values until nothing is left open. -/
def skipWithin (limit : Nat) : Nat → List Opened → Reader Unit
  | 0, _ => pure ()
  | fuel + 1, opened => do
    let left ← match ← skipToken limit with
      | some container => skipClosings (container :: opened) false
      | none => skipClosings opened true
    match left with
    | [] => pure ()
    | .list :: _ => skipWithin limit fuel left
    | .object :: _ => do
      skipKey limit
      skipWithin limit fuel left

/-- Skips a value. -/
def skipValue (fuel : Nat) : Reader Unit := skipWithin fuel fuel []

end Reader

end Dialogue.Json
