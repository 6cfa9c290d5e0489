import Dialogue.Json

/-!
# Shapes of wire values

A `Shape` describes what a value on the wire has to look like; `Shape.Value` is the type of what is
read under it. Every record of the wire format is described once, as a `Shape`, and the same
description serves reading from untyped values, reading from text and writing.

A record is read by filling `Slots`, one for each field in declared order: entries may come in any
order, and what a missing field stands for is decided once all entries are read.
-/

namespace Dialogue

/-- What a field of a record stands for when it is missing, and when it is left out on writing. -/
inductive Presence where
  /-- The field has to be there. -/
  | required
  /-- A missing field reads as null; nothing is written for `none`. -/
  | optional
  /-- A missing field reads as the given value; the field is always written. -/
  | defaulted (value : Json)

mutual
/-- What a value has to look like. -/
inductive Shape where
  | string
  | boolean
  /-- A whole number from zero. -/
  | count
  /-- A number, read as a double. -/
  | real
  /-- Any value at all. -/
  | any
  /-- Null, or a value of the given shape. -/
  | nullable (s : Shape)
  | list (s : Shape)
  /-- One of some names. -/
  | choice (names : List String)
  /-- A record; an open one keeps the entries that it has no field for. -/
  | record (name : String) (isOpen : Bool) (fields : Fields)
/-- The fields of a record in declared order. -/
inductive Fields where
  | nil
  | cons (key : String) (presence : Presence) (shape : Shape) (rest : Fields)
end

mutual
/-- What is read under a shape. -/
def Shape.Value : Shape → Type
  | .string => String
  | .boolean => Bool
  | .count => Nat
  | .real => Double
  | .any => Json
  | .nullable s => Option s.Value
  | .list s => List s.Value
  | .choice names => Fin names.length
  | .record _ false fields => fields.Value
  | .record _ true fields => fields.Value × Entries
/-- The values of some fields, in declared order. -/
def Fields.Value : Fields → Type
  | .nil => Unit
  | .cons _ _ s rest => s.Value × rest.Value
end

/-- Room for the value of each field, filled as entries are read. -/
def Fields.Slots : Fields → Type
  | .nil => Unit
  | .cons _ _ s rest => Option s.Value × rest.Slots

/-- No field read yet. -/
def Fields.noneRead : (fs : Fields) → fs.Slots
  | .nil => ()
  | .cons _ _ _ rest => (none, rest.noneRead)

/-- The names of the fields. -/
def Fields.keys : Fields → List String
  | .nil => []
  | .cons key _ _ rest => key :: rest.keys

/-- The number of fields. -/
def Fields.size : Fields → Nat
  | .nil => 0
  | .cons _ _ _ rest => rest.size + 1

end Dialogue
