import Dialogue.Fault
import Dialogue.Flow.Wire

/-!
# Stored definitions

A stored definition keeps the columns of a flow as untyped values, so that a bad column is blamed on
its flow and does not spoil the look-up. `Definition.toFlow` decodes the columns, the first bad one
in their fixed order being the one that is blamed; a null column is an empty one.
-/

namespace Dialogue

/-- A flow as it is stored. -/
structure Definition where
  id : String
  version : Option String
  groups : Json
  edges : Json
  vars : Json
  events : Json
  settings : Json
  deriving Repr, Inhabited

open Members in
instance : Wire Definition :=
  .record "FlowRow"
    (required "id" String <| defaulted "version" .null (Option String) <|
      defaulted "groups" .null Json <| defaulted "edges" .null Json <|
      defaulted "variables" .null Json <| defaulted "events" .null Json <|
      defaulted "settings" .null Json <| nil)
    (fun (id, version, groups, edges, vars, events, settings, ()) =>
      ⟨id, version, groups, edges, vars, events, settings⟩)
    (fun d => (d.id, d.version, d.groups, d.edges, d.vars, d.events, d.settings, ()))
    (fun _ => rfl) (fun _ => rfl)

/-- Settings that say nothing. -/
def Settings.empty : Settings := ⟨none, []⟩

/-- The messages that settings replace. -/
def Settings.messages (s : Settings) : Option Messages := s.general.bind (·.systemMessages)

namespace Definition

/-- A column of a definition; null is an empty column. -/
def column {α : Type} [Wire α] (flowId name : String) (empty : α) (j : Json) : Except Fault α :=
  match j with
  | .null => .ok empty
  | j =>
    match decode α j with
    | .ok a => .ok a
    | .error m => .error (.invalidFlow flowId (.column name m))

/-- The flow that a definition stands for, under another id if one is given. -/
def toFlow (d : Definition) (override : Option String) : Except Fault Flow := do
  let id := override.getD d.id
  let groups ← column id "groups" ([] : List Group) d.groups
  let edges ← column id "edges" ([] : List Edge) d.edges
  let vars ← column id "variables" ([] : List Variable) d.vars
  let events ← column id "events" ([] : List Event) d.events
  let settings ← column id "settings" Settings.empty d.settings
  return ⟨id, d.version, groups, edges, events, vars, settings, settings.messages⟩

end Definition

end Dialogue
