import Dialogue.Flow.Version

/-!
# Where a flow is entered

`Flow.entryGroup` names the group that a link into the flow lands on.
-/

namespace Dialogue

/-- The id of the group where the flow is entered: the wanted one if any; else, in a modern flow,
the target of the first event's edge, and in an older one the first group with a start block. -/
def Flow.entryGroup (f : Flow) (wanted : Option String) : Option String :=
  match wanted with
  | some groupId => some groupId
  | none =>
    if f.schemaVersion.isModern then do
      let event ← f.events.head?
      let edge ← f.edge? (← event.outgoingEdgeId)
      return edge.target.groupId
    else (f.groups.find? Group.hasStart).map (·.id)

end Dialogue
