import Dialogue.Session.Scope
import Dialogue.Store.Host

/-!
# Following edges and returning

`Host.next` follows an edge from the active frame. A frame without such an edge is finished: it is
popped, its result is closed or absorbed by the frame beneath, and its return edge is followed
there. The last frame is never popped; without an edge it ends the session.
-/

namespace Dialogue

/-- Where a session continues. -/
structure Next where
  /-- The group to execute, cut from the target block; none when nothing is left to run. -/
  group : Option Group
  session : Session
  deriving Repr, Inhabited

/-- The group that an edge leads to, cut from its target block. -/
def Flow.destination (f : Flow) (e : Edge) : Option Group :=
  (f.group? e.target.groupId).map (·.cutFrom e.target.blockId)

/-- What is recorded for a frame when it is finished; nothing for a merging frame or in a preview.
-/
def Frame.closing? (f : Frame) : Option ResultWrite :=
  if f.merges then none
  else f.resultId.map fun id => ⟨id, f.flow, !f.answers.isEmpty, true⟩

/-- The frame beneath once a frame is finished. -/
def Frame.resumed (parent finished : Frame) : Frame :=
  if finished.merges then parent.absorb finished else parent

/-- Closes the result of a finished frame. -/
def Host.close {σ : Type} (host : Host σ) (finished : Frame) : Engine σ Unit :=
  match finished.closing? with
  | some write => ask (host.upsert write)
  | none => pure ()

/-- Follows an edge from the first frame, popping the frames that are finished. -/
def Host.follow {σ : Type} (host : Host σ) :
    Frame → List Frame → Option String → Engine σ (Option Group × List Frame)
  | top, [], edgeId =>
    pure ((edgeId.bind top.flow.edge?).bind top.flow.destination, [top])
  | top, parent :: beneath, edgeId =>
    match edgeId.bind top.flow.edge? with
    | some edge => pure (top.flow.destination edge, top :: parent :: beneath)
    | none => do
      host.close top
      host.follow (parent.resumed top) beneath top.returnEdgeId

/-- Follows an edge from the active frame. -/
def Host.next {σ : Type} (host : Host σ) (s : Session) (edgeId : Option String) : Engine σ Next :=
  match s.frames with
  | [] => throw .noFrame
  | top :: beneath => do
    let (group, frames) ← host.follow top beneath edgeId
    return ⟨group, { s with frames := frames }⟩

end Dialogue
