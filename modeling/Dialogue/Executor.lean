import Dialogue.Link

/-!
# Executors of blocks

A registry finds the executor for the type of a block. A block of a type without an executor goes on
by its own edge.
-/

namespace Dialogue

/-- Executes blocks of one type. -/
abbrev Executor (σ : Type) := Host σ → Config → Session → Block → Engine σ Reply

/-- Executors by the type of block. -/
structure Registry (σ : Type) where
  executors : List (String × Executor σ)

namespace Executor

/-- The type of a link block. -/
def linkType : String := "Typebot link"

/-- Follows links. -/
def link {σ : Type} : Executor σ := fun host config s b => host.link config s b

/-- Stands for an executor of a caller's own, such as may be registered for further types of block.
It goes by the edge that the block's options name, or fails with the text that they name. -/
def jump {σ : Type} : Executor σ := fun _ _ _ b =>
  let option (key : String) : Option Json :=
    match b.options with
    | some (.object entries) => Entries.get? key entries
    | _ => none
  match option "fail", option "jump" with
  | some (.string text), _ => throw (.config (.refusal text))
  | _, some (.string edgeId) => return ⟨some edgeId, none, []⟩
  | _, _ => return ⟨none, none, []⟩

end Executor

namespace Registry

/-- Follows links and nothing else. -/
def default {σ : Type} : Registry σ := ⟨[(Executor.linkType, Executor.link)]⟩

/-- The executor for a type of block. -/
def executor? {σ : Type} (r : Registry σ) (type : String) : Option (Executor σ) :=
  r.executors.lookup type

/-- Executes a block. -/
def execute {σ : Type} (r : Registry σ) (host : Host σ) (config : Config) (s : Session)
    (b : Block) : Engine σ Reply :=
  match r.executor? b.type with
  | some e => e host config s b
  | none => return ⟨b.outgoingEdgeId, none, []⟩

end Registry

end Dialogue
