import Dialogue.Json

/-!
# Flows

A flow is a graph of groups of blocks joined by edges. Edges are followed by their id: an edge leads
to a group, or to one of its blocks. A flow also declares events, through which it is entered, and
variables. Flows are values: adding an edge or replacing the variables makes a new flow.
-/

namespace Dialogue

/-- A single instruction of a group. Its options mean something only to what executes it. -/
structure Block where
  id : String
  type : String
  outgoingEdgeId : Option String
  options : Option Json
  deriving Repr, Inhabited

/-- A node of the graph: blocks executed in order. -/
structure Group where
  id : String
  title : String
  blocks : List Block
  deriving Repr, Inhabited

/-- Where an edge starts: at a block, at an item or path of it, or at an event. -/
structure Source where
  blockId : Option String
  itemId : Option String
  pathId : Option String
  eventId : Option String
  deriving Repr, Inhabited, DecidableEq

/-- Where an edge leads: to a group, or to a block of it. -/
structure Target where
  groupId : String
  blockId : Option String
  deriving Repr, Inhabited, DecidableEq

/-- A connection, followed by its id. -/
structure Edge where
  id : String
  source : Source
  target : Target
  deriving Repr, Inhabited, DecidableEq

/-- A declared entry of a flow. -/
structure Event where
  id : String
  type : String
  outgoingEdgeId : Option String
  deriving Repr, Inhabited, DecidableEq

/-- A named variable. -/
structure Variable where
  id : String
  name : String
  value : Option Json
  deriving Repr, Inhabited

/-- Messages of the chat client that the flow replaces. -/
structure Messages where
  invalidMessage : Option String
  botClosed : Option String
  networkErrorTitle : Option String
  networkErrorMessage : Option String
  extra : Entries
  deriving Repr, Inhabited

/-- The general part of a flow's settings. -/
structure General where
  systemMessages : Option Messages
  extra : Entries
  deriving Repr, Inhabited

/-- The settings of a flow. -/
structure Settings where
  general : Option General
  extra : Entries
  deriving Repr, Inhabited

/-- The definition of a flow as a session holds it. -/
structure Flow where
  id : String
  version : Option String
  groups : List Group
  edges : List Edge
  events : List Event
  vars : List Variable
  settings : Settings
  systemMessages : Option Messages
  deriving Repr, Inhabited

/-! ### Blocks and groups -/

/-- The type of the block that marks where a flow of an older version starts. -/
def Block.startType : String := "start"

/-- Whether a block marks the start of a flow. -/
def Block.isStart (b : Block) : Bool := b.type == Block.startType

namespace Group

/-- The place of the first block with an id. -/
def positionOf? (g : Group) (blockId : String) : Option Nat :=
  g.blocks.findIdx? (·.id == blockId)

/-- Whether a block belongs to the group. -/
def holds (g : Group) (blockId : String) : Bool := (g.positionOf? blockId).isSome

/-- The block behind a block. -/
def blockAfter? (g : Group) (blockId : String) : Option Block := do
  let i ← g.positionOf? blockId
  g.blocks[i + 1]?

/-- Whether the group holds a start block. -/
def hasStart (g : Group) : Bool := g.blocks.any Block.isStart

/-- The group from a block on; the whole group when there is no such block. -/
def cutFrom (g : Group) (blockId : Option String) : Group :=
  { g with blocks := g.blocks.drop ((blockId.bind g.positionOf?).getD 0) }

end Group

/-! ### Edges and variables -/

namespace Source

/-- The source of an edge made while a session runs: nothing is resolved from it. -/
def unset : Source := ⟨some "", none, none, none⟩

/-- Whether nothing can be resolved from the source. -/
def isUnset (s : Source) : Bool :=
  (match s.blockId with
    | none => true
    | some id => id.isEmpty) && s.itemId.isNone && s.pathId.isNone && s.eventId.isNone

end Source

/-- Whether a variable has a value; null is none. -/
def Variable.hasValue (v : Variable) : Bool :=
  match v.value with
  | none => false
  | some .null => false
  | some _ => true

/-! ### Flows -/

namespace Flow

/-- The first group with an id. -/
def group? (f : Flow) (id : String) : Option Group := f.groups.find? (·.id == id)

/-- The first edge with an id. -/
def edge? (f : Flow) (id : String) : Option Edge := f.edges.find? (·.id == id)

/-- The first group that holds a block. -/
def groupHolding? (f : Flow) (blockId : String) : Option Group := f.groups.find? (·.holds blockId)

/-- The first variable with a name. -/
def varNamed? (f : Flow) (name : String) : Option Variable := f.vars.find? (·.name == name)

/-- The flow with one more edge. -/
def withEdge (f : Flow) (e : Edge) : Flow := { f with edges := f.edges ++ [e] }

/-- The flow with other variables. -/
def withVariables (f : Flow) (vs : List Variable) : Flow := { f with vars := vs }

end Flow

end Dialogue
