import Dialogue.Executor
import Dialogue.Session.Return

/-!
# Running a session

`Registry.run` follows an edge, executes the blocks of the group it leads to until one answers an
outgoing edge, follows that edge, and so on, for a bounded number of groups. It answers what
happened as a list of events; what was adopted before a fault stays.
-/

namespace Dialogue

/-- Something that happens in a run. -/
inductive RunEvent where
  /-- A group is entered, with a number of frames and an active flow. -/
  | entered (group : Group) (depth : Nat) (flowId : String)
  /-- A block is about to be executed in the active flow. -/
  | reached (flowId : String) (block : Block)
  | answered (block : Block) (reply : Reply)
  deriving Repr

/-- How a run ends. -/
inductive Ending where
  /-- Nothing is left to run. -/
  | finished
  /-- The bound on the number of groups is reached. -/
  | interrupted
  | aborted (f : Fault)
  deriving DecidableEq, Repr

/-- A run: what happened, the session at its end, and how it ended. -/
structure Run where
  events : List RunEvent
  session : Session
  ending : Ending
  deriving Repr

/-- The id of the active flow. -/
def Session.activeFlowId (s : Session) : String :=
  match s.frames with
  | [] => ""
  | top :: _ => top.flow.id

/-- What comes of some blocks: events, the session behind them, and the edge to follow. -/
structure Pass where
  events : List RunEvent
  session : Session
  outcome : Except Fault (Option String)

variable {σ : Type}

/-- Executes blocks in order up to the first that answers an outgoing edge. -/
def Registry.runBlocks (r : Registry σ) (host : Host σ) (config : Config) :
    List Block → Session → StateM σ Pass
  | [], s => pure ⟨[], s, .ok none⟩
  | b :: rest, s => do
    let reached := RunEvent.reached s.activeFlowId b
    match ← (r.execute host config s b).run with
    | .error f => pure ⟨[reached], s, .error f⟩
    | .ok reply =>
      let s' := reply.session.getD s
      match reply.outgoingEdgeId with
      | some edgeId => pure ⟨[reached, .answered b reply], s', .ok (some edgeId)⟩
      | none => do
        let pass ← r.runBlocks host config rest s'
        pure { pass with events := reached :: .answered b reply :: pass.events }

/-- Runs a session from an edge, through so many groups at most. -/
def Registry.run (r : Registry σ) (host : Host σ) (config : Config) :
    Nat → Session → Option String → StateM σ Run
  | 0, s, _ => pure ⟨[], s, .interrupted⟩
  | groups + 1, s, edgeId => do
    match ← (host.next s edgeId).run with
    | .error f => pure ⟨[], s, .aborted f⟩
    | .ok ⟨none, s'⟩ => pure ⟨[], s', .finished⟩
    | .ok ⟨some group, s'⟩ => do
      let entered := RunEvent.entered group s'.depth s'.activeFlowId
      let pass ← r.runBlocks host config group.blocks s'
      match pass.outcome with
      | .error f => pure ⟨entered :: pass.events, pass.session, .aborted f⟩
      | .ok edgeId' => do
        let rest ← r.run host config groups pass.session edgeId'
        pure { rest with events := entered :: pass.events ++ rest.events }

end Dialogue
