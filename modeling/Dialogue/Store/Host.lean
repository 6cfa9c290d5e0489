import Dialogue.Flow.Definition

/-!
# What the engine asks of its surroundings

A `Host` answers the engine's requests: stored definitions of flows, records of results and fresh
ids. Its state is abstract, and any request to a store may fail; a failing one may still have
changed the state. `Engine` is a computation on the state of a host that may be aborted by a fault.
-/

namespace Dialogue

/-- The record of a session's result, or of a fork of it. -/
structure ResultRow where
  id : String
  flowId : String
  hasStarted : Bool
  isCompleted : Bool
  vars : List Variable
  deriving Repr, Inhabited

/-- What is to be recorded under a result id. -/
structure ResultWrite where
  id : String
  flow : Flow
  hasStarted : Bool
  isCompleted : Bool
  deriving Repr, Inhabited

/-- The record that is written: of the flow's variables, those with a value. -/
def ResultWrite.row (w : ResultWrite) : ResultRow :=
  ⟨w.id, w.flow.id, w.hasStarted, w.isCompleted, w.flow.vars.filter Variable.hasValue⟩

open Members in
instance : Wire ResultRow :=
  .record "ResultRecord"
    (required "id" String <| required "flowId" String <| required "hasStarted" Bool <|
      required "isCompleted" Bool <| required "variables" (List Variable) <| nil)
    (fun (id, flow, started, completed, vars, ()) =>
      ⟨id, flow, started, completed, vars⟩)
    (fun r => (r.id, r.flowId, r.hasStarted, r.isCompleted, r.vars, ()))
    (fun _ => rfl) (fun _ => rfl)

/-- A request to a store. -/
abbrev Request (σ α : Type) := ExceptT StoreFault (StateM σ) α

/-- A computation of the engine. -/
abbrev Engine (σ α : Type) := ExceptT Fault (StateM σ) α

/-- What answers the engine's requests, with a state of type `σ`. -/
structure Host (σ : Type) where
  /-- The definition of a flow as it is edited. -/
  draft : String → Request σ (Option Definition)
  /-- The definition of a flow as it was published. -/
  published : String → Request σ (Option Definition)
  /-- Creates a record unless there is one under its id. -/
  ensure : ResultWrite → Request σ Unit
  /-- Creates or replaces a record. -/
  upsert : ResultWrite → Request σ Unit
  /-- An id that has not been drawn before. -/
  freshId : StateM σ String

/-- Makes a request; its failure aborts the turn. -/
def ask {σ α : Type} (r : Request σ α) : Engine σ α := fun w =>
  match r w with
  | (.ok a, w') => (.ok a, w')
  | (.error e, w') => (.error (.store e), w')

/-- Draws a fresh id. -/
def Host.draw {σ : Type} (host : Host σ) : Engine σ String := fun w =>
  match host.freshId w with
  | (id, w') => (.ok id, w')

/-- A result that needs no request. -/
def settle {σ α : Type} (r : Except Fault α) : Engine σ α := fun w => (r, w)

/-- The flow that a session of some mode finds under an id. A preview reads the draft; a live
session reads the published definition, which has an id of its own, and gives it the id asked for.
-/
def Host.fetch {σ : Type} (host : Host σ) (preview : Bool) (flowId : String) :
    Engine σ (Option Flow) := do
  if preview then
    match ← ask (host.draft flowId) with
    | some d => some <$> settle (d.toFlow none)
    | none => return none
  else
    match ← ask (host.published flowId) with
    | some d => some <$> settle (d.toFlow (some flowId))
    | none => return none

end Dialogue
