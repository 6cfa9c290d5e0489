import Dialogue.Interpreter
import Dialogue.Json.Printer
import Dialogue.Session.Wire
import Dialogue.Store.Memory

/-!
# Scripted sessions

A `Stage` is a session with stores in memory, a configuration and a registry; a `Step` acts on it.
`Stage.play` performs a step and answers its `Outcome`. A step that fails leaves the session as it
was.
-/

namespace Dialogue

/-- A block given outright, or by its id in the active flow. -/
inductive BlockRef where
  | given (b : Block)
  | named (id : String)
  deriving Repr

/-- An edge given outright, or the one that the last executed block answered. -/
inductive EdgeRef where
  | given (id : Option String)
  | last
  deriving Repr

/-- Something to do with a session. -/
inductive Step where
  /-- Executes a block by the registry, or as a link whatever its type; adopts the new state if so
  wanted. -/
  | execute (block : BlockRef) (asLink commit : Bool)
  | next (edge : EdgeRef)
  | run (edgeId : Option String) (groups : Nat)
  /-- Sets every variable of a name in the frame at a place. -/
  | setVariable (name : String) (frame : Nat) (value : Option Json)
  /-- Adds an answer to the active frame. -/
  | answer (a : Answer)
  | insertDraft (d : Definition)
  | publish (flowId : String) (d : Definition)
  | lookup (flowId : String)
  | setOutage (o : Outage)
  | configure (c : Config)
  /-- Writes the session as text and reads it again. -/
  | reload
  | show

/-- What a step answers. -/
inductive Outcome where
  | done
  | replied (r : Reply)
  | continued (n : Next)
  | ran (r : Run)
  /-- So many variables were set, or so many answers are there. -/
  | counted (n : Nat)
  | found (draft published : Option Definition)
  | reloaded (same : Bool)
  | shown (s : Session)
  | failed (f : Fault)
  | unreadable (p : Json.Problem)
  | noSuchFrame
  | noSuchBlock
  deriving Repr

/-- A session with all that its steps need. -/
structure Stage where
  session : Session
  memory : Memory
  config : Config
  registry : Registry Memory
  /-- The edge that the last executed block answered. -/
  lastEdgeId : Option String

/-- The frame with a value for every variable of a name. -/
def Frame.setVariable (f : Frame) (name : String) (value : Option Json) : Frame :=
  let set (v : Variable) : Variable := if v.name == name then { v with value := value } else v
  { f with flow := f.flow.withVariables (f.flow.vars.map set) }

/-- The number of variables of a name. -/
def Frame.countVariable (f : Frame) (name : String) : Nat :=
  f.flow.vars.countP (·.name == name)

/-- The frame with one more answer. -/
def Frame.addAnswer (f : Frame) (a : Answer) : Frame := { f with answers := f.answers ++ [a] }

/-- A flow's first block with an id. -/
def Flow.block? (f : Flow) (id : String) : Option Block := do
  (← f.groupHolding? id).blocks.find? (·.id == id)

/-- The session as its own text reads. -/
def Session.reread (s : Session) : Except Json.Problem Session :=
  decodeText Session (encode s).print

namespace Stage

/-- Performs a computation of the engine on the stores. -/
def perform {α : Type} (st : Stage) (e : Engine Memory α) : Except Fault α × Stage :=
  let (result, memory) := e.run st.memory
  (result, { st with memory := memory })

/-- The block that is meant; an outcome if there is none. -/
def block (st : Stage) : BlockRef → Except Outcome Block
  | .given b => .ok b
  | .named id =>
    match st.session.frames with
    | [] => .error (.failed .noFrame)
    | top :: _ =>
      match top.flow.block? id with
      | some b => .ok b
      | none => .error .noSuchBlock

/-- The edge that is meant. -/
def edge (st : Stage) : EdgeRef → Option String
  | .given id => id
  | .last => st.lastEdgeId

/-- Executes a block. -/
def executeBlock (st : Stage) (b : Block) (asLink commit : Bool) : Outcome × Stage :=
  let run :=
    if asLink then Memory.host.link st.config st.session b
    else st.registry.execute Memory.host st.config st.session b
  match st.perform run with
  | (.error f, st') => (.failed f, st')
  | (.ok reply, st') =>
    (.replied reply,
      { st' with
        lastEdgeId := reply.outgoingEdgeId
        session := if commit then reply.session.getD st'.session else st'.session })

/-- Looks up both definitions of a flow. -/
def lookupBoth (flowId : String) : Engine Memory (Option Definition × Option Definition) := do
  let draft ← ask (Memory.host.draft flowId)
  let published ← ask (Memory.host.published flowId)
  return (draft, published)

/-- Performs a step. -/
def perform1 (st : Stage) : Step → Outcome × Stage
  | .execute ref asLink commit =>
    match st.block ref with
    | .error outcome => (outcome, st)
    | .ok b => st.executeBlock b asLink commit
  | .next ref =>
    match st.perform (Memory.host.next st.session (st.edge ref)) with
    | (.error f, st') => (.failed f, st')
    | (.ok n, st') => (.continued n, { st' with session := n.session })
  | .run edgeId groups =>
    let (r, memory) := st.registry.run Memory.host st.config groups st.session edgeId st.memory
    (.ran r, { st with memory := memory, session := r.session })
  | .setVariable name place value =>
    match st.session.frames[place]? with
    | none => (.noSuchFrame, st)
    | some f =>
      let frames := st.session.frames.set place (f.setVariable name value)
      (.counted (f.countVariable name), { st with session := { st.session with frames := frames } })
  | .answer a =>
    match st.session.frames with
    | [] => (.noSuchFrame, st)
    | top :: beneath =>
      let frames := top.addAnswer a :: beneath
      (.counted (top.answers.length + 1),
        { st with session := { st.session with frames := frames } })
  | .insertDraft d => (.done, { st with memory := st.memory.insertDraft d })
  | .publish flowId d => (.done, { st with memory := st.memory.publish flowId d })
  | .lookup flowId =>
    match st.perform (lookupBoth flowId) with
    | (.error f, st') => (.failed f, st')
    | (.ok (draft, published), st') => (.found draft published, st')
  | .setOutage o => (.done, { st with memory := { st.memory with outage := o } })
  | .configure c => (.done, { st with config := c })
  | .reload =>
    match st.session.reread with
    | .error p => (.unreadable p, st)
    | .ok s => (.reloaded ((encode st.session).same (encode s)), { st with session := s })
  | .show => (.shown st.session, st)

/-- Performs a step; its journal holds the requests of this step only. -/
def play (st : Stage) (step : Step) : Outcome × Stage :=
  { st with memory := { st.memory with journal := [] } }.perform1 step

end Stage

end Dialogue
