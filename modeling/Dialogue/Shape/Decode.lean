import Dialogue.Shape.Mismatch

/-!
# Reading untyped values under a shape

`Shape.decode` reads an untyped value. A record may be given as an object, whose entries are read in
their order, entries without a field being skipped or, in an open record, kept; or, unless it is
open, as an array with one item for each field in declared order. The first entry or item that does
not fit is the one reported, and a missing field only once every entry fits.
-/

namespace Dialogue

/-! ### Values of one kind -/

/-- The place of a name among some names. -/
def chosen (names : List String) (name : String) : Except Mismatch (Fin names.length) :=
  match names.finIdxOf? name with
  | some i => .ok i
  | none => .error (.unknownName name names)

/-- A choice that is spelt as an entry carries nothing. -/
def chosenEntry (names : List String) (name : String) (content : Json) :
    Except Mismatch (Fin names.length) := do
  let i ← chosen names name
  match content with
  | .null => .ok i
  | other => .error (.kind (.of other) .unit)

namespace Json

/-- A value of another kind than expected. -/
def unlike {α : Type} (j : Json) (expected : Expected) : Except Mismatch α :=
  .error (.kind (.of j) expected)

/-- The value as a text. -/
def asText : Json → Except Mismatch String
  | .string t => .ok t
  | j => j.unlike .string

/-- The value as a truth value. -/
def asTruth : Json → Except Mismatch Bool
  | .bool b => .ok b
  | j => j.unlike .boolean

/-- The value as a whole number from zero. -/
def asCount : Json → Except Mismatch Nat
  | .int n => if 0 ≤ n then .ok n.toNat else .error (.value (.int n) .count)
  | j => j.unlike .count

/-- The value as a number. -/
def asReal : Json → Except Mismatch Double
  | .int n => .ok (Double.ofInt n)
  | .double d => .ok d
  | j => j.unlike .real

/-- Null, or the value as `read` reads it. -/
def asNullable {α : Type} (read : Json → Except Mismatch α) : Json → Except Mismatch (Option α)
  | .null => .ok none
  | j => some <$> read j

/-- The value as a list of what `read` reads. -/
def asList {α : Type} (read : Json → Except Mismatch α) : Json → Except Mismatch (List α)
  | .array items => items.mapM read
  | j => j.unlike .sequence

/-- The value as one of some names. -/
def asChoice (names : List String) : Json → Except Mismatch (Fin names.length)
  | .string name => chosen names name
  | .object [(name, content)] => chosenEntry names name content
  | .object _ => .error (.value .map .singleEntry)
  | j => j.unlike .stringOrMap

/-- The value as a record: an object, or an array with an item for each field. -/
def asRecord {α : Type} (name : String) (ofEntries : Entries → Except Mismatch α)
    (ofItems : List Json → Except Mismatch α) : Json → Except Mismatch α
  | .object entries => ofEntries entries
  | .array items => ofItems items
  | j => j.unlike (.record name)

/-- The value as an open record, which is an object. -/
def asOpenRecord {α : Type} (name : String) (ofEntries : Entries → Except Mismatch α) :
    Json → Except Mismatch α
  | .object entries => ofEntries entries
  | j => j.unlike (.record name)

end Json

/-! ### Records -/

/-- Reads entries in their order into slots. An entry that `put` has no slot for is skipped. -/
def readEntries {σ : Type} (put : String → Json → σ → Option (Except Mismatch σ)) :
    Entries → σ → Except Mismatch σ
  | [], slots => .ok slots
  | (key, value) :: more, slots =>
    match put key value slots with
    | some filled => do readEntries put more (← filled)
    | none => readEntries put more slots

/-- The entries that there is no field for. -/
def Fields.others (fs : Fields) (entries : Entries) : Entries :=
  entries.filter fun e => !fs.keys.contains e.1

mutual
/-- Reads an untyped value under a shape. -/
def Shape.decode : (s : Shape) → Json → Except Mismatch s.Value
  | .string, j => j.asText
  | .boolean, j => j.asTruth
  | .count, j => j.asCount
  | .real, j => j.asReal
  | .any, j => .ok j
  | .nullable s, j => j.asNullable s.decode
  | .list s, j => j.asList s.decode
  | .choice names, j => j.asChoice names
  | .record name false fs, j =>
    j.asRecord name (fun entries => readEntries fs.put entries fs.noneRead >>= fs.gather)
      (fun items => fs.positional (.tooShort · name fs.size) items 0)
  | .record name true fs, j =>
    j.asOpenRecord name fun entries =>
      (·, fs.others entries) <$> (readEntries fs.put entries fs.noneRead >>= fs.gather)
/-- Reads an entry into the slot of its field; `none` if there is no such field. -/
def Fields.put : (fs : Fields) → String → Json → fs.Slots → Option (Except Mismatch fs.Slots)
  | .nil, _, _, _ => none
  | .cons name _ s rest, key, value, (slot, slots) =>
    if key = name then
      some (if slot.isSome then .error (.duplicate key)
        else (fun v => (some v, slots)) <$> s.decode value)
    else (rest.put key value slots).map fun filled => (slot, ·) <$> filled
/-- The values of all fields once every entry is read. -/
def Fields.gather : (fs : Fields) → fs.Slots → Except Mismatch fs.Value
  | .nil, _ => .ok ()
  | .cons name presence s rest, (slot, slots) => do
    let value ← match slot, presence with
      | some v, _ => .ok v
      | none, .required => .error (.missing name)
      | none, .optional => s.decode .null
      | none, .defaulted j => s.decode j
    let values ← rest.gather slots
    .ok (value, values)
/-- Reads one item for each field in declared order; `items` have been read before. -/
def Fields.positional : (fs : Fields) → (Nat → Mismatch) → List Json → Nat →
    Except Mismatch fs.Value
  | .nil, _, left, count =>
    if left.isEmpty then .ok () else .error (.tooLong (count + left.length))
  | .cons _ presence s rest, tooShort, left, count => do
    let value ← match left, presence with
      | j :: _, _ => s.decode j
      | [], .required => .error (tooShort count)
      | [], .optional => s.decode .null
      | [], .defaulted j => s.decode j
    let values ← rest.positional tooShort left.tail (count + 1)
    .ok (value, values)
end

end Dialogue
