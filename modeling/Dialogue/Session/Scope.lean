import Dialogue.Session

/-!
# Variables across frames

A declared variable sees the nearest variable of its name, from the active frame outwards
(`Variable.filled`). When a merging frame is finished the frame beneath takes its values back
(`Frame.absorb`).
-/

namespace Dialogue

/-- The nearest variable of a name, from the active frame outwards. -/
def nearest? (name : String) (frames : List Frame) : Option Variable :=
  frames.findSome? fun f => f.flow.varNamed? name

/-- A declared variable with the value of the nearest one of its name. A nearest one without a value
hides those beneath it. -/
def Variable.filled (frames : List Frame) (v : Variable) : Variable :=
  { v with value := (nearest? v.name frames).bind (·.value) }

/-- Declared variables, filled from the frames of a session. -/
def fill (declared : List Variable) (frames : List Frame) : List Variable :=
  declared.map (Variable.filled frames)

/-- A variable with the value that a finished flow leaves under its name, if any. -/
def Variable.updated (finished : Flow) (v : Variable) : Variable :=
  match finished.varNamed? v.name with
  | some w => if w.hasValue then { v with value := w.value } else v
  | none => v

/-- The variables with a value that a flow does not declare. -/
def Flow.undeclared (f : Flow) (vs : List Variable) : List Variable :=
  vs.filter fun v => v.hasValue && (f.varNamed? v.name).isNone

/-- The frame after a merging frame above it is finished: its variables take the values left there,
further variables with a value are appended, and the answers are those of the finished frame, which
started from a copy. -/
def Frame.absorb (parent finished : Frame) : Frame :=
  { parent with
    flow := parent.flow.withVariables
      (parent.flow.vars.map (Variable.updated finished.flow)
        ++ parent.flow.undeclared finished.flow.vars)
    answers := finished.answers }

end Dialogue
