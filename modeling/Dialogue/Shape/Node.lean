import Dialogue.Shape.Wire
import Dialogue.Yaml.Node

/-!
# Reading YAML nodes under a shape

`Shape.ofNode?` reads a node under a shape. What is wanted decides how a scalar is read, so a text
is taken as it is written and a number may stand in quotes. A null stands for an empty list or an
empty record. Entries that a record has no field for are skipped, but have to be sound.
-/

namespace Dialogue

open Yaml

/-- What a reading yields if it succeeds. -/
def readable? {α : Type} : Except Mismatch α → Option α
  | .ok a => some a
  | .error _ => none

namespace Yaml.Node

/-- The truth value that a node spells. -/
def truth? : Node → Option Bool
  | .scalar s => Yaml.truth? s.trimmed
  | _ => none

/-- The whole number from zero that a node spells. -/
def count? : Node → Option Nat
  | .scalar s => Yaml.count? s.trimmed
  | _ => none

/-- The number that a node spells. -/
def real? : Node → Option Double
  | .scalar s => Yaml.real? s.trimmed
  | _ => none

/-- Whether nothing is given. -/
def isAbsent : Node → Bool
  | .scalar s => s.isAbsent
  | _ => false

/-- The items of a list; null is an empty list. -/
def items? : Node → Option (List Node)
  | .list items => some items
  | n => if n.isNull then some [] else none

/-- The entries of a map; null is an empty map. -/
def entries? : Node → Option NodeEntries
  | .map entries => some entries
  | n => if n.isNull then some [] else none

/-- One of some names. -/
def choice? (names : List String) (n : Node) : Option (Fin names.length) :=
  n.text?.bind fun name => readable? (chosen names name)

end Yaml.Node

/-- Reads entries in their order into slots. An entry that `put` has no slot for is skipped. -/
def readNodes {σ : Type} (put : String → Node → σ → Option (Option σ)) :
    NodeEntries → σ → Option σ
  | [], slots => some slots
  | (key, n) :: more, slots => do
    match put (← key.text?) n slots with
    | some filled => readNodes put more (← filled)
    | none => if n.isSound then readNodes put more slots else none

mutual
/-- Reads a node under a shape. -/
def Shape.ofNode? : (s : Shape) → Node → Option s.Value
  | .string, n => n.text?
  | .boolean, n => n.truth?
  | .count, n => n.count?
  | .real, n => n.real?
  | .any, n => n.toJson?
  | .nullable s, n => if n.isAbsent then some none else some <$> s.ofNode? n
  | .list s, n => do (← n.items?).mapM s.ofNode?
  | .choice names, n => n.choice? names
  | .record _ false fs, n => do
    readable? (fs.gather (← readNodes fs.putNode (← n.entries?) fs.noneRead))
  | .record _ true fs, n => do
    let entries ← n.entries?
    let values ← readable? (fs.gather (← readNodes fs.putNode entries fs.noneRead))
    return (values, fs.others (← Node.toJsonEntries? entries))
/-- Reads an entry into the slot of its field, which has to be free; `none` if there is no such
field. -/
def Fields.putNode : (fs : Fields) → String → Node → fs.Slots → Option (Option fs.Slots)
  | .nil, _, _, _ => none
  | .cons name _ s rest, key, n, (slot, slots) =>
    if key = name then
      some (if slot.isSome then none else (fun v => (some v, slots)) <$> s.ofNode? n)
    else (rest.putNode key n slots).map fun filled => (slot, ·) <$> filled
end

end Dialogue
