import Dialogue.Flow.Version
import Dialogue.Shape.Wire

/-!
# Options of a link block

What a link block asks for, and whether the flow it leads to merges its results.
-/

namespace Dialogue

/-- The options of a link block. -/
structure LinkOptions where
  flowId : Option String
  groupId : Option String
  mergesResults : Option Bool
  deriving Repr, Inhabited, DecidableEq

open Members in
instance : Wire LinkOptions :=
  .record "LinkBlockOptions"
    (optional "typebotId" String <| optional "groupId" String <|
      optional "mergeResults" Bool <| nil)
    (fun (flow, group, merges, ()) => ⟨flow, group, merges⟩)
    (fun o => (o.flowId, o.groupId, o.mergesResults, ()))
    (fun _ => rfl) (fun _ => rfl)

/-- The options of a block as link options; a block without options asks for nothing. -/
def Block.linkOptions (b : Block) : Except Mismatch LinkOptions :=
  match b.options with
  | none => .ok ⟨none, none, none⟩
  | some .null => .ok ⟨none, none, none⟩
  | some j => decode LinkOptions j

namespace LinkOptions

/-- The name of the flow that is active when the link is executed. -/
def currentFlow : String := "current"

/-- The wanted flow; an empty id is none. -/
def flow? (o : LinkOptions) : Option String := o.flowId.filter (!·.isEmpty)

/-- The wanted group; an empty id is none. -/
def group? (o : LinkOptions) : Option String := o.groupId.filter (!·.isEmpty)

/-- Whether the link leads into the active flow itself. -/
def targetsActive (o : LinkOptions) (activeId : String) : Bool :=
  match o.flow? with
  | some id => id == currentFlow || id == activeId
  | none => false

end LinkOptions

/-- Whether a linked flow writes into the results of its caller. A modern caller decides by the
option, or else by the default; an older one merges unless the option says no. -/
def Flow.mergesLinked (caller : Flow) (option : Option Bool) (byDefault : Bool) : Bool :=
  if caller.schemaVersion.isModern then option.getD byDefault else option != some false

end Dialogue
