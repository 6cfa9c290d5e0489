import Dialogue.Flow.Wire
import Dialogue.Session

/-!
# The wire format of sessions

A session keeps the entries that it does not name, a frame drops them.
-/

namespace Dialogue

open Members

instance : Wire Answer :=
  .record "Answer"
    (required "key" String <| required "value" String <|
      optional "attachedFileUrls" (List String) <| nil)
    (fun (key, value, urls, ()) => ⟨key, value, urls⟩)
    (fun a => (a.key, a.value, a.attachedFileUrls, ()))
    (fun _ => rfl) (fun _ => rfl)

instance : Wire Frame :=
  .record "FlowInstance"
    (required "typebot" Flow <| optional "resultId" String <|
      optional "edgeIdToTriggerWhenDone" String <| defaulted "answers" (.array []) (List Answer) <|
      defaulted "isMergingWithParent" (.bool false) Bool <| nil)
    (fun (flow, result, edge, answers, merges, ()) => ⟨flow, result, edge, answers, merges⟩)
    (fun f => (f.flow, f.resultId, f.returnEdgeId, f.answers, f.merges, ()))
    (fun _ => rfl) (fun _ => rfl)

instance : Wire Session :=
  .openRecord "SessionState"
    (required "typebotsQueue" (List Frame) <| nil)
    (fun ((frames, ()), extra) => ⟨frames, extra⟩)
    (fun s => ((s.frames, ()), s.extra))
    (fun _ => rfl) (fun _ => rfl)

/-- The names of the ranks. -/
def Log.Status.names : List String := ["error", "success", "info"]

/-- The rank at a place among the names. -/
def Log.Status.ofFin : Fin 3 → Log.Status
  | 0 => .error
  | 1 => .success
  | 2 => .info

/-- The place of a rank among the names. -/
def Log.Status.toFin : Log.Status → Fin 3
  | .error => 0
  | .success => 1
  | .info => 2

instance : Wire Log.Status where
  shape := .choice Log.Status.names
  ofWire := Log.Status.ofFin
  toWire := Log.Status.toFin
  ofWire_toWire s := by cases s <;> rfl
  toWire_ofWire (w : Fin 3) := match w with
    | 0 => rfl
    | 1 => rfl
    | 2 => rfl

instance : Wire Log :=
  .record "ChatLog"
    (required "status" Log.Status <| required "description" String <|
      optional "details" String <| nil)
    (fun (status, description, details, ()) => ⟨status, description, details⟩)
    (fun l => (l.status, l.description, l.details, ()))
    (fun _ => rfl) (fun _ => rfl)

end Dialogue
