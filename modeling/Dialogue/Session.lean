import Dialogue.Flow

/-!
# Sessions

A session is a stack of frames, the active one first. A frame holds a flow with the answers gathered
while it was active, the id of the result they are recorded under, and the edge to follow in the
frame beneath once it is finished. A frame without a result id belongs to a preview.
-/

namespace Dialogue

/-- An answer to an input block. -/
structure Answer where
  key : String
  value : String
  attachedFileUrls : Option (List String)
  deriving Repr, Inhabited, DecidableEq

/-- One entry of the stack. -/
structure Frame where
  flow : Flow
  resultId : Option String
  /-- The edge to follow in the frame beneath once this one is finished. -/
  returnEdgeId : Option String
  answers : List Answer
  /-- Whether variables and answers go to the frame beneath once this one is finished. -/
  merges : Bool
  deriving Repr, Inhabited

/-- The state of a session between two steps. -/
structure Session where
  frames : List Frame
  /-- What the engine keeps without looking at it. -/
  extra : Entries
  deriving Repr, Inhabited

/-- The frame that a fresh session starts with. -/
def Frame.root (flow : Flow) (resultId : Option String) : Frame := ⟨flow, resultId, none, [], false⟩

/-- Whether a frame belongs to a preview. -/
def Frame.isPreview (f : Frame) : Bool := f.resultId.isNone

namespace Session

/-- A session of one frame. -/
def start (root : Frame) : Session := ⟨[root], []⟩

/-- The active frame. -/
def active? (s : Session) : Option Frame := s.frames.head?

/-- The number of frames. -/
def depth (s : Session) : Nat := s.frames.length

/-- Whether the session is a preview, as the active frame tells. -/
def isPreview (s : Session) : Bool :=
  match s.frames with
  | [] => true
  | top :: _ => top.isPreview

end Session

/-! ### Logs -/

/-- How a log entry ranks. -/
inductive Log.Status where
  | error
  | success
  | info
  deriving Repr, Inhabited, DecidableEq

/-- An entry of the log that the chat client shows. -/
structure Log where
  status : Log.Status
  description : String
  details : Option String
  deriving Repr, Inhabited, DecidableEq

/-- An error entry. -/
def Log.failure (description details : String) : Log := ⟨.error, description, some details⟩

/-- Whether an entry reports an error. -/
def Log.isError (l : Log) : Bool := l.status == .error

end Dialogue
