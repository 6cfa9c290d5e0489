import Dialogue.Json.Reader
import Dialogue.Shape.Decode

/-!
# Reading JSON text under a shape

`Shape.ofText` reads a text straight into the values of a shape, so problems of syntax and values
that do not fit are found in reading order. It fills the same slots as `Shape.decode`; it differs in
that a positional record is read item by item, so an item too many is text left over.
-/

namespace Dialogue

open Json Json.Reader

/-- Consumes the value that comes next, as far as it takes to tell what it is, and reports it. -/
def mismatchNext {α : Type} (fuel : Nat) (expected : Expected) : Reader α := do
  match ← peekToken with
  | none => failAtNext .endInValue
  | some 'n' => do skip; word ['u', 'l', 'l']; report .null
  | some 't' => do skip; word ['r', 'u', 'e']; report (.bool true)
  | some 'f' => do skip; word ['a', 'l', 's', 'e']; report (.bool false)
  | some '"' => do skip; report (.string (← stringRest fuel))
  | some '[' => report .sequence
  | some '\x7b' => report .map
  | some c =>
    if c = '-' || c.isDigit then do report (.of (← number)) else failAtNext .expectedValue
where
  /-- Reports what was found at the place reached. -/
  report (found : Found) : Reader α := fail (.unfit (.kind found expected))

/-- A mismatch is reported where the value ends. -/
def orFail {α : Type} : Except Mismatch α → Reader α
  | .ok a => pure a
  | .error m => failFit m

mutual
/-- Reads a value, its containers nesting less than `depth` deep. -/
def Shape.read (fuel : Nat) : Nat → (s : Shape) → Reader s.Value
  | _, .string => do
    match ← peekToken with
    | some '"' => do skip; stringRest fuel
    | _ => mismatchNext fuel .string
  | _, .boolean => do
    match ← peekToken with
    | some 't' => do skip; word ['r', 'u', 'e']; return true
    | some 'f' => do skip; word ['a', 'l', 's', 'e']; return false
    | _ => mismatchNext fuel .boolean
  | _, .count => do
    match ← peekToken with
    | some c =>
      if c = '-' || c.isDigit then placed do orFail (Shape.count.decode (← number))
      else mismatchNext fuel .count
    | none => mismatchNext fuel .count
  | _, .real => do
    match ← peekToken with
    | some c =>
      if c = '-' || c.isDigit then placed do orFail (Shape.real.decode (← number))
      else mismatchNext fuel .real
    | none => mismatchNext fuel .real
  | depth, .any => any fuel depth
  | depth, .nullable s => do
    match ← peekToken with
    | some 'n' => do skip; word ['u', 'l', 'l']; return none
    | _ => do return some (← s.read fuel depth)
  | depth, .list s => do
    match ← peekToken with
    | some '[' =>
      if depth ≤ 1 then failAtNext .tooDeep
      else do
        skip
        placed (closedBy (items (s.read fuel (depth - 1)) fuel true []) endList)
    | _ => mismatchNext fuel .sequence
  | depth, .choice names => do
    match ← peekToken with
    | some '"' => do
      skip
      let name ← stringRest fuel
      placed (orFail (chosen names name))
    | some '\x7b' =>
      if depth ≤ 1 then failAtNext .tooDeep
      else do
        skip
        match ← peekToken with
        | some '"' => do
          skip
          let name ← stringRest fuel
          let i ← placed (orFail (chosen names name))
          colon
          match ← peekToken with
          | some 'n' => do
            skip
            word ['u', 'l', 'l']
            match ← peekToken with
            | some '\x7d' => do skip; return i
            | some _ => fail .expectedValue
            | none => fail .endInObject
          | _ => mismatchNext fuel .unit
        | _ => mismatchNext fuel .string
    | some _ => failAtNext .expectedValue
    | none => failAtNext .endInValue
  | depth, .record name false fs => do
    match ← peekToken with
    | some '[' =>
      if depth ≤ 1 then failAtNext .tooDeep
      else do
        skip
        placed (closedBy (fs.readItems fuel (depth - 1) (.tooShort · name fs.size) 0) endList)
    | some '\x7b' =>
      if depth ≤ 1 then failAtNext .tooDeep
      else do
        skip
        let entry (slots : fs.Slots) : Reader fs.Slots := do
          let k ← key fuel
          match fs.readEntry fuel (depth - 1) k slots with
          | some r => r
          | none => do colon; skipValue fuel; return slots
        let fields : Reader fs.Value := do
          orFail (fs.gather (← entries entry fuel true fs.noneRead))
        placed (closedBy fields endObject)
    | _ => mismatchNext fuel (.record name)
  | depth, .record name true fs => do
    match ← peekToken with
    | some '\x7b' =>
      if depth ≤ 1 then failAtNext .tooDeep
      else do
        skip
        let entry (read : fs.Slots × Entries) : Reader (fs.Slots × Entries) := do
          let k ← key fuel
          match fs.readEntry fuel (depth - 1) k read.1 with
          | some r => return (← r, read.2)
          | none => do
            colon
            let v ← any fuel (depth - 1)
            return (read.1, read.2.put k v)
        let fields : Reader (fs.Value × Entries) := do
          let (slots, extra) ← entries entry fuel true (fs.noneRead, [])
          return (← orFail (fs.gather slots), extra)
        placed (closedBy fields endObject)
    | _ => mismatchNext fuel (.record name)
/-- Reads the entry of a field, its key consumed; `none` if there is no such field. -/
def Fields.readEntry (fuel depth : Nat) :
    (fs : Fields) → String → fs.Slots → Option (Reader fs.Slots)
  | .nil, _, _ => none
  | .cons name _ s rest, key, (slot, slots) =>
    if key = name then
      some do
        if slot.isSome then failFit (.duplicate key)
        else
          colon
          return (some (← s.read fuel depth), slots)
    else (rest.readEntry fuel depth key slots).map fun r => do return (slot, ← r)
/-- Reads one item for each field in declared order; `count` have been read before. -/
def Fields.readItems (fuel depth : Nat) : (fs : Fields) → (Nat → Mismatch) → Nat → Reader fs.Value
  | .nil, _, _ => return ()
  | .cons _ presence s rest, tooShort, count => do
    let value ←
      if ← hasItem (count = 0) then s.read fuel depth
      else match presence with
        | .required => failFit (tooShort count)
        | .optional => orFail (s.decode .null)
        | .defaulted j => orFail (s.decode j)
    let values ← rest.readItems fuel depth tooShort (count + 1)
    return (value, values)
end

/-- Reads a whole text under a shape. -/
def Shape.ofText (s : Shape) (text : String) : Except Problem s.Value :=
  Reader.run (s.read (text.length + 1) depthLimit) text

/-- Reads a whole text as an untyped value. -/
def Json.ofText (text : String) : Except Problem Json :=
  Shape.any.ofText text

end Dialogue
