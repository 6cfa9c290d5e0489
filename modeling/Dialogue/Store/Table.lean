/-!
# Tables

A table maps texts to values. Its entries stand in increasing order of their keys, each key once, so
two tables with the same look-ups are listed the same way.
-/

namespace Dialogue

/-- A map from texts, listed by key. -/
structure Table (α : Type) where
  entries : List (String × α)
  deriving Repr, Inhabited

namespace Table

/-- No entries. -/
def empty {α : Type} : Table α := ⟨[]⟩

/-- The value under a key in a list of entries. -/
def lookup {α : Type} (key : String) : List (String × α) → Option α
  | [] => none
  | (k, v) :: rest => if k = key then some v else lookup key rest

/-- Puts a value under a key of a sorted list of entries. -/
def place {α : Type} (key : String) (value : α) : List (String × α) → List (String × α)
  | [] => [(key, value)]
  | (k, v) :: rest =>
    if k = key then (key, value) :: rest
    else if key < k then (key, value) :: (k, v) :: rest
    else (k, v) :: place key value rest

/-- The value under a key. -/
def get? {α : Type} (t : Table α) (key : String) : Option α := lookup key t.entries

/-- The table with a value under a key, replacing any other. -/
def put {α : Type} (t : Table α) (key : String) (value : α) : Table α :=
  ⟨place key value t.entries⟩

/-- The table with a value under a key, unless there is one already. -/
def putNew {α : Type} (t : Table α) (key : String) (value : α) : Table α :=
  match t.get? key with
  | some _ => t
  | none => t.put key value

/-- The number of entries. -/
def size {α : Type} (t : Table α) : Nat := t.entries.length

/-- The values, by increasing key. -/
def values {α : Type} (t : Table α) : List α := t.entries.map (·.2)

end Table

end Dialogue
