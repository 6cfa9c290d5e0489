import Dialogue.Config
import Dialogue.Flow.Entry
import Dialogue.Link.Options
import Dialogue.Session.Scope
import Dialogue.Store.Host

/-!
# Linking flows

A link block pushes a frame for another flow, or another frame for the active one, and answers the
id of an edge into it, made for the purpose. A block without an outgoing edge of its own gets an
edge to the block behind it, which the pushed frame returns through. A link that cannot be followed
is refused: the refusal is logged and the session goes on by the block's own edge, unchanged.

All that can fail comes before the first id is drawn, and the ledger is written at most once.
-/

namespace Dialogue

/-- What a block answers. -/
structure Reply where
  outgoingEdgeId : Option String
  /-- The new state of the session; none when it is unchanged. -/
  session : Option Session
  logs : List Log
  deriving Repr, Inhabited

/-- Why a link is not followed. -/
inductive Refusal where
  | unreadableOptions (m : Mismatch)
  | noTarget
  | tooDeep
  | unknownFlow (flowId : String)
  | unknownGroup (groupId : Option String)
  deriving DecidableEq, Repr

/-- The wording of a refusal. -/
def Refusal.details : Refusal → String
  | .unreadableOptions m => String.join ["Invalid link options: ", m.message]
  | .noTarget => "Typebot ID is not specified"
  | .tooDeep => "Maximum link depth reached"
  | .unknownFlow flowId => String.join ["Typebot with ID ", flowId, " not found"]
  | .unknownGroup groupId =>
    String.join ["Group with ID \"", groupId.getD "undefined", "\" not found"]

/-- The log entry of a refusal. -/
def Refusal.log (r : Refusal) : Log := .failure "Failed to link typebot" r.details

/-- Goes on by the block's own edge with one log entry. -/
def Block.refuse (b : Block) (r : Refusal) : Reply := ⟨b.outgoingEdgeId, none, [r.log]⟩

/-! ### Edges made for a link -/

/-- Where a flow resumes behind a block without an edge of its own: at the block after it. -/
def Flow.resumeTarget? (f : Flow) (b : Block) : Option Target :=
  if b.outgoingEdgeId.isSome then none
  else do
    let group ← f.groupHolding? b.id
    let after ← group.blockAfter? b.id
    return ⟨group.id, some after.id⟩

/-- A new edge from nowhere to a target. -/
def Host.edgeTo {σ : Type} (host : Host σ) (t : Target) : Engine σ Edge := do
  return ⟨← host.draw, .unset, t⟩

/-- The edge by which a frame resumes behind a block, if it needs one. -/
def Host.resumeEdge {σ : Type} (host : Host σ) (f : Frame) (b : Block) : Engine σ (Option Edge) :=
  match f.flow.resumeTarget? b with
  | some t => some <$> host.edgeTo t
  | none => return none

/-- The frame with one more edge. -/
def Frame.withEdge (f : Frame) (e : Edge) : Frame := { f with flow := f.flow.withEdge e }

/-- The session with one more edge in the active frame. -/
def Session.withEdge (s : Session) (e : Edge) : Session :=
  match s.frames with
  | [] => s
  | top :: beneath => { s with frames := top.withEdge e :: beneath }

/-- The caller with the edge by which it resumes, and the id of the edge to return through. -/
def Host.pause {σ : Type} (host : Host σ) (caller : Frame) (b : Block) :
    Engine σ (Frame × Option String) := do
  match ← host.resumeEdge caller b with
  | some e => return (caller.withEdge e, some (b.outgoingEdgeId.getD e.id))
  | none => return (caller, b.outgoingEdgeId)

/-! ### Following a link -/

/-- The wanted group if the flow has it. -/
def Flow.existing (f : Flow) (groupId : Option String) : Option String :=
  groupId.filter fun id => (f.group? id).isSome

/-- Answers an edge from nowhere into a group of the active frame. -/
def Host.enter {σ : Type} (host : Host σ) (s : Session) (groupId : String) : Engine σ Reply := do
  let portal ← host.edgeTo ⟨groupId, none⟩
  return ⟨some portal.id, some (s.withEdge portal), []⟩

/-- Pushes another frame for the active flow. It writes to the same result. -/
def Host.pushSame {σ : Type} (host : Host σ) (s : Session) (current : Frame) (beneath : List Frame)
    (b : Block) : Engine σ Session := do
  let (caller, returnEdgeId) ← host.pause current b
  let top : Frame := ⟨current.flow, current.resultId, returnEdgeId, current.answers, true⟩
  return { s with frames := top :: caller :: beneath }

/-- Makes sure that the result of a caller without answers is recorded before it forks or is shared.
-/
def Host.ensureStarted {σ : Type} (host : Host σ) (current : Frame) : Engine σ Unit :=
  match current.resultId with
  | some id =>
    if current.answers.isEmpty then ask (host.ensure ⟨id, current.flow, false, false⟩) else pure ()
  | none => pure ()

/-- The result id of a pushed frame: none in a preview, the caller's when it merges, else a new one.
-/
def Host.resultIdFor {σ : Type} (host : Host σ) (current : Frame) (merges : Bool) :
    Engine σ (Option String) :=
  match current.resultId with
  | none => pure none
  | some id => if merges then pure (some id) else some <$> host.draw

/-- Pushes a frame for another flow, its variables filled from the frames of the session. -/
def Host.pushOther {σ : Type} (host : Host σ) (config : Config) (s : Session) (current : Frame)
    (beneath : List Frame) (b : Block) (options : LinkOptions) (linked : Flow) :
    Engine σ Session := do
  let merges := current.flow.mergesLinked options.mergesResults config.mergesByDefault
  host.ensureStarted current
  let (caller, returnEdgeId) ← host.pause current b
  let resultId ← host.resultIdFor current merges
  let top : Frame :=
    ⟨linked.withVariables (fill linked.vars s.frames), resultId, returnEdgeId,
      if merges then current.answers else [], merges⟩
  return { s with frames := top :: caller :: beneath }

/-- Executes a link block. -/
def Host.link {σ : Type} (host : Host σ) (config : Config) (s : Session) (b : Block) :
    Engine σ Reply :=
  match s.frames with
  | [] => throw .noFrame
  | current :: beneath =>
    match b.linkOptions with
    | .error m => return b.refuse (.unreadableOptions m)
    | .ok options =>
      match options.flow? with
      | none => return b.refuse .noTarget
      | some flowId =>
        if !config.allowsPush s.depth then return b.refuse .tooDeep
        else if options.targetsActive current.flow.id then
          match current.flow.existing options.group? with
          | none => return b.refuse (.unknownGroup options.group?)
          | some groupId => do
            let pushed ← host.pushSame s current beneath b
            host.enter pushed groupId
        else do
          match ← host.fetch current.isPreview flowId with
          | none => return b.refuse (.unknownFlow flowId)
          | some linked =>
            match linked.existing (linked.entryGroup options.group?) with
            | none => return b.refuse (.unknownGroup options.group?)
            | some groupId => do
              let pushed ← host.pushOther config s current beneath b options linked
              host.enter pushed groupId

end Dialogue
