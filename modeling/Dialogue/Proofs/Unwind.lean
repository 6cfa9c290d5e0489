import Mathlib.Data.List.Induction
import Dialogue.Proofs.Engine
import Dialogue.Session.Return

/-!
# What a return does

Following an edge is told without its requests by `unwind`: which frames are popped, each as it is
when popped, which group is reached, and which frames are left. `follow_eq_unwind` says that nothing
else happens than the closing of the popped frames, from the front to the back. What a frame is once
all those above it have been popped is told from them alone (`Frame.restored`). What holds of the
stack of frames and survives a single pop holds of the stack that is left (`unwind_frames`) and of
every stack that a frame was popped from (`unwind_popped`).
-/

namespace Dialogue

/-- What following an edge comes to. -/
structure Unwound where
  /-- The finished frames, from the front, each as it is when it is popped. -/
  popped : List Frame
  group : Option Group
  frames : List Frame

/-- Follows an edge from the first frame without any request. -/
def unwind : Frame → List Frame → Option String → Unwound
  | top, [], edgeId => ⟨[], (edgeId.bind top.flow.edge?).bind top.flow.destination, [top]⟩
  | top, parent :: beneath, edgeId =>
    match edgeId.bind top.flow.edge? with
    | some edge => ⟨[], top.flow.destination edge, top :: parent :: beneath⟩
    | none =>
      let rest := unwind (parent.resumed top) beneath top.returnEdgeId
      { rest with popped := top :: rest.popped }

/-- An edge of the first frame is followed there. -/
theorem unwind_of_edge {top parent : Frame} {beneath : List Frame} {edgeId : Option String}
    {edge : Edge} (h : edgeId.bind top.flow.edge? = some edge) :
    unwind top (parent :: beneath) edgeId =
      ⟨[], top.flow.destination edge, top :: parent :: beneath⟩ := by
  simp [unwind, h]

/-- A frame without the edge is popped. -/
theorem unwind_of_no_edge {top parent : Frame} {beneath : List Frame} {edgeId : Option String}
    (h : edgeId.bind top.flow.edge? = none) :
    unwind top (parent :: beneath) edgeId =
      { unwind (parent.resumed top) beneath top.returnEdgeId with
        popped := top :: (unwind (parent.resumed top) beneath top.returnEdgeId).popped } := by
  simp [unwind, h]

theorem unwind_frames_ne_nil : ∀ (beneath : List Frame) (top : Frame) (edgeId : Option String),
    (unwind top beneath edgeId).frames ≠ []
  | [], _, _ => by simp [unwind]
  | parent :: beneath, top, edgeId => by
    cases h : edgeId.bind top.flow.edge? with
    | some edge => simp [unwind_of_edge h]
    | none =>
      rw [unwind_of_no_edge h]
      exact unwind_frames_ne_nil beneath _ _

/-- What closing a frame writes. -/
theorem Frame.closing?_eq_some {f : Frame} {w : ResultWrite} (h : f.closing? = some w) :
    f.merges = false ∧ f.resultId = some w.id ∧ w = ⟨w.id, f.flow, !f.answers.isEmpty, true⟩ := by
  unfold closing? at h
  split at h
  · simp at h
  · rename_i hm
    obtain ⟨r, hr, rfl⟩ := Option.map_eq_some_iff.mp h
    exact ⟨by simpa using hm, hr, rfl⟩

/-- To close a single frame writes one result at most. -/
theorem filterMap_closing_single (f : Frame) :
    [f].filterMap Frame.closing? = f.closing?.toList := by
  rw [List.filterMap_cons]
  cases f.closing? <;> rfl

/-- What is written for the finished frames, in order. -/
def Unwound.writes (u : Unwound) : List ResultWrite := u.popped.filterMap Frame.closing?

/-- A frame whose result is written when it is popped. -/
theorem Unwound.mem_writes {u : Unwound} {w : ResultWrite} (h : w ∈ u.writes) :
    ∃ f ∈ u.popped, f.merges = false ∧ f.resultId = some w.id ∧
      w = ⟨w.id, f.flow, !f.answers.isEmpty, true⟩ := by
  obtain ⟨f, hf, closing⟩ := List.mem_filterMap.mp h
  exact ⟨f, hf, Frame.closing?_eq_some closing⟩

/-- Closes the results of finished frames, in order. -/
def Host.closeAll {σ : Type} (host : Host σ) (finished : List Frame) : Engine σ Unit :=
  finished.forM host.close

/-- To follow an edge is to unwind the frames and to close those that are popped. -/
theorem Host.follow_eq_unwind {σ : Type} (host : Host σ) :
    ∀ (beneath : List Frame) (top : Frame) (edgeId : Option String),
      host.follow top beneath edgeId = do
        host.closeAll (unwind top beneath edgeId).popped
        return ((unwind top beneath edgeId).group, (unwind top beneath edgeId).frames)
  | [], top, edgeId => by simp [follow, unwind, closeAll]
  | parent :: beneath, top, edgeId => by
    cases h : edgeId.bind top.flow.edge? with
    | some edge => simp [follow, unwind_of_edge h, h, closeAll]
    | none =>
      have rest := host.follow_eq_unwind beneath (parent.resumed top) top.returnEdgeId
      simp [follow, unwind_of_no_edge h, h, closeAll, rest]

theorem exec_next {σ : Type} (host : Host σ) (top : Frame) (beneath : List Frame) (extra : Entries)
    (edgeId : Option String) (w : σ) :
    exec (host.next ⟨top :: beneath, extra⟩ edgeId) w =
      proceed (exec (host.closeAll (unwind top beneath edgeId).popped) w) fun _ w' =>
        (.ok ⟨(unwind top beneath edgeId).group, ⟨(unwind top beneath edgeId).frames, extra⟩⟩, w')
    := by
  simp only [Host.next, exec_bind, host.follow_eq_unwind]
  rcases exec (host.closeAll (unwind top beneath edgeId).popped) w with ⟨_ | _, _⟩ <;> rfl

/-- A return that succeeds has closed the popped frames and leaves what `unwind` says. -/
theorem next_ok {σ : Type} {host : Host σ} {top : Frame} {beneath : List Frame} {extra : Entries}
    {edgeId : Option String} {n : Next} {w w' : σ}
    (h : exec (host.next ⟨top :: beneath, extra⟩ edgeId) w = (.ok n, w')) :
    exec (host.closeAll (unwind top beneath edgeId).popped) w = (.ok (), w') ∧
      n = ⟨(unwind top beneath edgeId).group, ⟨(unwind top beneath edgeId).frames, extra⟩⟩ := by
  rw [exec_next] at h
  rcases closed : exec (host.closeAll (unwind top beneath edgeId).popped) w with ⟨f | _, w₁⟩
  · rw [closed, proceed_error] at h
    cases h
  · rw [closed, proceed_ok] at h
    obtain ⟨reached, rfl⟩ := Prod.mk.inj h
    exact ⟨rfl, (Except.ok.inj reached).symm⟩

theorem Host.closeAll_append {σ : Type} (host : Host σ) (a b : List Frame) :
    host.closeAll (a ++ b) = host.closeAll a >>= fun _ => host.closeAll b :=
  List.forM_append

/-- A return that pops some frames closes them, and then is the return from the frames beneath. -/
theorem exec_next_past {σ : Type} (host : Host σ) {top parent : Frame}
    {beneath rest gone : List Frame} {edgeId back : Option String} (extra : Entries) (w : σ)
    (on : unwind top beneath edgeId =
      { unwind parent rest back with popped := gone ++ (unwind parent rest back).popped }) :
    exec (host.next ⟨top :: beneath, extra⟩ edgeId) w =
      exec (do
        host.closeAll gone
        host.next ⟨parent :: rest, extra⟩ back) w := by
  rw [exec_next, on, Host.closeAll_append, exec_bind, exec_bind]
  rcases exec (host.closeAll gone) w with ⟨f | _, w'⟩
  · rfl
  · rw [proceed_ok, proceed_ok, exec_next]

/-! ### What a pop leaves alone -/

/-- A frame without what a return may change in it: its variables and its answers. -/
def Frame.shell (f : Frame) : Frame := { f with flow := f.flow.withVariables [], answers := [] }

@[simp] theorem Frame.shell_resultId (f : Frame) : f.shell.resultId = f.resultId := rfl

@[simp] theorem Frame.shell_merges (f : Frame) : f.shell.merges = f.merges := rfl

@[simp] theorem Frame.shell_flow_id (f : Frame) : f.shell.flow.id = f.flow.id := rfl

@[simp] theorem Frame.shell_resumed (parent finished : Frame) :
    (parent.resumed finished).shell = parent.shell := by
  unfold resumed
  split <;> rfl

@[simp] theorem Frame.resumed_resultId (parent finished : Frame) :
    (parent.resumed finished).resultId = parent.resultId :=
  congrArg (·.resultId) (parent.shell_resumed finished)

@[simp] theorem Frame.resumed_merges (parent finished : Frame) :
    (parent.resumed finished).merges = parent.merges :=
  congrArg (·.merges) (parent.shell_resumed finished)

@[simp] theorem Frame.resumed_flow_id (parent finished : Frame) :
    (parent.resumed finished).flow.id = parent.flow.id :=
  congrArg (·.flow.id) (parent.shell_resumed finished)

/-- A frame that does not merge hands nothing over. -/
theorem Frame.resumed_of_fork (parent : Frame) {finished : Frame} (fork : finished.merges = false) :
    parent.resumed finished = parent := by
  simp [resumed, fork]

theorem Frame.resumed_of_merges (parent : Frame) {finished : Frame}
    (merges : finished.merges = true) : parent.resumed finished = parent.absorb finished :=
  if_pos merges

/-- The frames of a stack stand in the same order behind a return, popped or not, and keep all but
variables and answers. -/
theorem unwind_shell : ∀ (beneath : List Frame) (top : Frame) (edgeId : Option String),
    ((unwind top beneath edgeId).popped ++ (unwind top beneath edgeId).frames).map Frame.shell =
      (top :: beneath).map Frame.shell
  | [], _, _ => by simp [unwind]
  | parent :: beneath, top, edgeId => by
    cases h : edgeId.bind top.flow.edge? with
    | some edge => simp [unwind_of_edge h]
    | none =>
      have rest := unwind_shell beneath (parent.resumed top) top.returnEdgeId
      rw [unwind_of_no_edge h]
      simpa using rest

theorem unwind_resultIds (beneath : List Frame) (top : Frame) (edgeId : Option String) :
    ((unwind top beneath edgeId).popped ++ (unwind top beneath edgeId).frames).map (·.resultId) =
      (top :: beneath).map (·.resultId) := by
  have shells := congrArg (List.map (·.resultId)) (unwind_shell beneath top edgeId)
  rwa [List.map_map, List.map_map] at shells

/-- Every frame behind a return stood on the stack before it. -/
theorem unwind_mem {beneath : List Frame} {top : Frame} {edgeId : Option String} {f : Frame}
    (h : f ∈ (unwind top beneath edgeId).popped ++ (unwind top beneath edgeId).frames) :
    ∃ k ∈ top :: beneath, k.shell = f.shell := by
  have shells := List.mem_map_of_mem (f := Frame.shell) h
  rw [unwind_shell] at shells
  exact List.mem_map.mp shells

theorem unwind_kept {beneath : List Frame} {top : Frame} {edgeId : Option String} {f : Frame}
    (h : f ∈ (unwind top beneath edgeId).popped ++ (unwind top beneath edgeId).frames) :
    ∃ k ∈ top :: beneath, k.resultId = f.resultId ∧ k.merges = f.merges := by
  obtain ⟨k, hk, same⟩ := unwind_mem h
  exact ⟨k, hk, congrArg (·.resultId) same, congrArg (·.merges) same⟩

/-- Every frame is popped or left. -/
theorem unwind_length (beneath : List Frame) (top : Frame) (edgeId : Option String) :
    (unwind top beneath edgeId).popped.length + (unwind top beneath edgeId).frames.length =
      beneath.length + 1 := by
  simpa using congrArg List.length (unwind_shell beneath top edgeId)

/-- A return that keeps the depth pops nothing. -/
theorem unwind_of_full {top : Frame} {beneath : List Frame} {edgeId : Option String}
    (full : (unwind top beneath edgeId).frames.length = beneath.length + 1) :
    (unwind top beneath edgeId).frames = top :: beneath := by
  have counted := unwind_length beneath top edgeId
  cases beneath with
  | nil => rfl
  | cons parent beneath =>
    cases found : edgeId.bind top.flow.edge? with
    | some edge => rw [unwind_of_edge found]
    | none =>
      rw [unwind_of_no_edge found] at counted full
      simp only [List.length_cons] at counted full
      omega

/-- A frame once those above it, the nearest first, have been popped one after the other: it takes
over from the nearest one, as that is then, if that one merges. -/
def Frame.restored : Frame → List Frame → Frame
  | f, [] => f
  | f, child :: above => if child.merges then f.absorb (child.restored above) else f

@[simp] theorem Frame.restored_nil (f : Frame) : f.restored [] = f := rfl

@[simp] theorem Frame.restored_merges (f : Frame) (above : List Frame) :
    (f.restored above).merges = f.merges := by
  cases above with
  | nil => rfl
  | cons child above =>
    unfold restored
    split <;> rfl

/-- What is restored is resumed once the nearest frame above it is finished. -/
@[simp] theorem Frame.restored_cons (f child : Frame) (above : List Frame) :
    f.restored (child :: above) = f.resumed (child.restored above) := by
  rw [restored, resumed, restored_merges]

@[simp] theorem Frame.shell_restored (f : Frame) (above : List Frame) :
    (f.restored above).shell = f.shell := by
  cases above with
  | nil => rfl
  | cons child above =>
    rw [restored_cons]
    exact f.shell_resumed _

/-- It makes no difference if the furthest frame above has been popped before. -/
theorem Frame.restored_resumed (parent top : Frame) : ∀ (f : Frame) (above : List Frame),
    f.restored (above ++ [parent.resumed top]) = f.restored (above ++ [parent, top])
  | _, [] => by simp
  | f, child :: above => by
    rw [List.cons_append, List.cons_append, restored_cons, restored_cons,
      restored_resumed parent top child above]

/-- Frames, the deepest first, each as it is once those above it have been popped. -/
def restoredEach : List Frame → List Frame
  | [] => []
  | f :: above => f.restored above :: restoredEach above

/-- If the furthest frame has been popped before, the others are restored all the same. -/
theorem restoredEach_resumed (parent top : Frame) : ∀ above : List Frame,
    restoredEach (above ++ [parent, top]) = restoredEach (above ++ [parent.resumed top]) ++ [top]
  | [] => rfl
  | f :: above => by
    rw [List.cons_append, List.cons_append, restoredEach, restoredEach, Frame.restored_resumed,
      restoredEach_resumed parent top above, List.cons_append]

/-- A pop restores one frame, and those further away are restored from there. -/
theorem restoredEach_pop (top parent : Frame) (above : List Frame) :
    restoredEach (top :: parent :: above).reverse =
      restoredEach (parent.resumed top :: above).reverse ++ [top] := by
  rw [List.reverse_cons, List.reverse_cons, List.reverse_cons, List.append_assoc,
    List.singleton_append, restoredEach_resumed]

/-- A return leaves the frame that becomes active restored, and those beneath it as they were. -/
theorem unwind_restored : ∀ (beneath : List Frame) (top : Frame) (edgeId : Option String),
    ∃ above f left, top :: beneath = above ++ f :: left ∧
      (unwind top beneath edgeId).frames = f.restored above.reverse :: left
  | [], top, _ => ⟨[], top, [], rfl, rfl⟩
  | parent :: beneath, top, edgeId => by
    cases h : edgeId.bind top.flow.edge? with
    | some edge =>
      rw [unwind_of_edge h]
      exact ⟨[], top, parent :: beneath, rfl, rfl⟩
    | none =>
      rw [unwind_of_no_edge h]
      obtain ⟨above, f, left, split, frames⟩ :=
        unwind_restored beneath (parent.resumed top) top.returnEdgeId
      cases above with
      | nil =>
        obtain ⟨rfl, rfl⟩ := List.cons.inj split
        exact ⟨[top], parent, beneath, rfl, frames⟩
      | cons a above =>
        obtain ⟨rfl, rfl⟩ := List.cons.inj split
        refine ⟨top :: parent :: above, f, left, rfl, ?_⟩
        rw [frames, List.reverse_cons, Frame.restored_resumed]
        simp

section

variable {P : List Frame → Prop}

/-- What survives a pop holds of the frames that are left. -/
theorem unwind_frames
    (pop : ∀ top parent beneath, P (top :: parent :: beneath) → P (parent.resumed top :: beneath)) :
    ∀ (beneath : List Frame) (top : Frame) (edgeId : Option String),
      P (top :: beneath) → P (unwind top beneath edgeId).frames
  | [], _, _, hp => hp
  | parent :: beneath, top, edgeId, hp => by
    cases h : edgeId.bind top.flow.edge? with
    | some edge =>
      rw [unwind_of_edge h]
      exact hp
    | none =>
      rw [unwind_of_no_edge h]
      exact unwind_frames pop beneath _ _ (pop top parent beneath hp)

/-- What survives a pop holds of each stack from which a frame is popped. -/
theorem unwind_popped
    (pop : ∀ top parent beneath, P (top :: parent :: beneath) → P (parent.resumed top :: beneath)) :
    ∀ (beneath : List Frame) (top : Frame) (edgeId : Option String), P (top :: beneath) →
      ∀ f ∈ (unwind top beneath edgeId).popped, ∃ parent under, P (f :: parent :: under)
  | [], _, _, _, f, hf => by simp [unwind] at hf
  | parent :: beneath, top, edgeId, hp, f, hf => by
    cases h : edgeId.bind top.flow.edge? with
    | some edge => simp [unwind_of_edge h] at hf
    | none =>
      rw [unwind_of_no_edge h, List.mem_cons] at hf
      rcases hf with rfl | hf
      · exact ⟨parent, beneath, hp⟩
      · exact unwind_popped pop beneath _ _ (pop top parent beneath hp) f hf

end

/-! ### Closing in memory -/

namespace Memory

/-- The stores once some results have been written. -/
def wrote (m : Memory) (writes : List ResultWrite) : Memory :=
  { m with
    results := writes.foldl Ledger.upsert m.results
    journal := m.journal ++ writes.map fun w => .upsertResult w.id }

@[simp] theorem wrote_nil (m : Memory) : m.wrote [] = m := by simp [wrote]

@[simp] theorem wrote_ids (m : Memory) (writes : List ResultWrite) :
    (m.wrote writes).ids = m.ids := rfl

@[simp] theorem wrote_outage (m : Memory) (writes : List ResultWrite) :
    (m.wrote writes).outage = m.outage := rfl

@[simp] theorem wrote_journal (m : Memory) (writes : List ResultWrite) :
    (m.wrote writes).journal = m.journal ++ writes.map fun w => .upsertResult w.id := rfl

theorem wrote_wrote (m : Memory) (a b : List ResultWrite) :
    (m.wrote a).wrote b = m.wrote (a ++ b) := by simp [wrote]

/-- A record is what it was, or what one of the writes makes it. -/
theorem wrote_get? {m : Memory} {writes : List ResultWrite} {r : String} {row : ResultRow}
    (h : (m.wrote writes).results.get? r = some row) :
    m.results.get? r = some row ∨ ∃ w ∈ writes, w.id = r ∧ w.row = row := by
  induction writes using List.reverseRecOn with
  | nil => exact .inl h
  | append_singleton writes w ih =>
    rw [← wrote_wrote] at h
    change (Ledger.upsert (m.wrote writes).results w).get? r = some row at h
    by_cases hw : w.id = r
    · subst hw
      rw [Ledger.get?_upsert_self] at h
      exact .inr ⟨w, by simp, rfl, by simpa using h⟩
    · rw [Ledger.get?_upsert_of_ne _ hw] at h
      rcases ih h with old | ⟨v, hv, hr, hrow⟩
      · exact .inl old
      · exact .inr ⟨v, List.mem_append_left _ hv, hr, hrow⟩

/-- A record that no write is about stays. -/
theorem wrote_get?_of_ne {m : Memory} {writes : List ResultWrite} {r : String}
    (h : ∀ w ∈ writes, w.id ≠ r) : (m.wrote writes).results.get? r = m.results.get? r := by
  induction writes generalizing m with
  | nil => rfl
  | cons w writes ih =>
    rw [← List.singleton_append, ← wrote_wrote, ih fun v hv => h v (List.mem_cons_of_mem _ hv)]
    exact Ledger.get?_upsert_of_ne _ (h w List.mem_cons_self)

/-- Of writes under different ids, each is on record afterwards. -/
theorem wrote_get?_mem {m : Memory} {writes : List ResultWrite} {w : ResultWrite}
    (distinct : writes.Pairwise fun v w => v.id ≠ w.id) (h : w ∈ writes) :
    (m.wrote writes).results.get? w.id = some w.row := by
  obtain ⟨before, after, rfl⟩ := List.append_of_mem h
  have later : ∀ v ∈ after, v.id ≠ w.id := fun v hv =>
    ((List.pairwise_cons.mp (List.pairwise_append.mp distinct).2.1).1 v hv).symm
  rw [List.append_cons, ← wrote_wrote, wrote_get?_of_ne later, ← wrote_wrote]
  exact Ledger.get?_upsert_self _ w

/-- What is on record stays on record. -/
theorem wrote_recorded {m : Memory} {writes : List ResultWrite} {r : String}
    (h : m.results.get? r ≠ none) : (m.wrote writes).results.get? r ≠ none := by
  induction writes generalizing m with
  | nil => exact h
  | cons w writes ih =>
    rw [← List.singleton_append, ← wrote_wrote]
    refine ih ?_
    change (Ledger.upsert m.results w).get? r ≠ none
    by_cases hw : w.id = r
    · simp [← hw]
    · rwa [Ledger.get?_upsert_of_ne _ hw]

theorem exec_upsert (w : ResultWrite) (m : Memory) :
    exec (ask (host.upsert w)) m =
      match m.outage m.journal (.upsertResult w.id) with
      | some fault => (.error (.store fault), m.note [.upsertResult w.id])
      | none => (.ok (), m.wrote [w]) := by
  change exec (ask (answer (.upsertResult w.id) fun m =>
    ((), { m with results := Ledger.upsert m.results w }))) m = _
  rw [exec_ask_answer]
  cases m.outage m.journal (.upsertResult w.id) <;> rfl

/-- Closing some frames writes their results in order, up to the first write that fails. -/
theorem exec_closeAll (finished : List Frame) (m : Memory) :
    exec (host.closeAll finished) m = (.ok (), m.wrote (finished.filterMap Frame.closing?)) ∨
      ∃ done w rest fault, finished.filterMap Frame.closing? = done ++ w :: rest ∧
        m.outage (m.wrote done).journal (.upsertResult w.id) = some fault ∧
        exec (host.closeAll finished) m =
          (.error (.store fault), (m.wrote done).note [.upsertResult w.id]) := by
  induction finished generalizing m with
  | nil => left; simp [Host.closeAll]
  | cons f fs ih =>
    have step : exec (host.closeAll (f :: fs)) m =
        proceed (exec (host.close f) m) fun _ => exec (host.closeAll fs) := by
      simp [Host.closeAll]
    cases hf : f.closing? with
    | none =>
      have quiet : exec (host.close f) m = (.ok (), m) := by simp [Host.close, hf]
      rw [step, quiet, proceed_ok, List.filterMap_cons_none hf]
      exact ih m
    | some w =>
      have write : exec (host.close f) m = exec (ask (host.upsert w)) m := by
        simp [Host.close, hf]
      rw [step, write, exec_upsert, List.filterMap_cons_some hf]
      cases ho : m.outage m.journal (.upsertResult w.id) with
      | some fault =>
        right
        exact ⟨[], w, _, fault, rfl, by simpa using ho, by simp⟩
      | none =>
        simp only [proceed_ok]
        rcases ih (m.wrote [w]) with h | ⟨done, v, rest, fault, hw, hv, h⟩
        · left
          rw [h, wrote_wrote, List.singleton_append]
        · right
          refine ⟨w :: done, v, rest, fault, by rw [hw, List.cons_append], ?_, ?_⟩
          · rw [wrote_wrote] at hv
            exact hv
          · rw [h, wrote_wrote, List.singleton_append]

/-- Without an outage every finished frame is closed. -/
theorem exec_closeAll_healthy {m : Memory} (healthy : m.outage = Outage.none)
    (finished : List Frame) :
    exec (host.closeAll finished) m = (.ok (), m.wrote (finished.filterMap Frame.closing?)) := by
  rcases exec_closeAll finished m with h | ⟨_, _, _, fault, _, ho, _⟩
  · exact h
  · simp [healthy, Outage.none] at ho

/-- Without an outage an edge is followed as `unwind` says. -/
theorem exec_next_healthy {m : Memory} (healthy : m.outage = Outage.none) (top : Frame)
    (beneath : List Frame) (extra : Entries) (edgeId : Option String) :
    exec (host.next ⟨top :: beneath, extra⟩ edgeId) m =
      (.ok ⟨(unwind top beneath edgeId).group, ⟨(unwind top beneath edgeId).frames, extra⟩⟩,
        m.wrote (unwind top beneath edgeId).writes) := by
  rw [exec_next, exec_closeAll_healthy healthy, proceed_ok]
  rfl

/-- Without an outage the frames that a return pops are closed before it goes on from beneath. -/
theorem exec_next_past_healthy {m : Memory} (healthy : m.outage = Outage.none)
    {top parent : Frame} {beneath rest gone : List Frame} {edgeId back : Option String}
    (extra : Entries)
    (on : unwind top beneath edgeId =
      { unwind parent rest back with popped := gone ++ (unwind parent rest back).popped }) :
    exec (host.next ⟨top :: beneath, extra⟩ edgeId) m =
      exec (host.next ⟨parent :: rest, extra⟩ back) (m.wrote (gone.filterMap Frame.closing?)) := by
  rw [exec_next_past host extra m on, exec_bind, exec_closeAll_healthy healthy, proceed_ok]

/-- What a return without an outage comes to. -/
theorem next_eq_ok {m m' : Memory} (healthy : m.outage = Outage.none) {top : Frame}
    {beneath : List Frame} {extra : Entries} {edgeId : Option String} {n : Next}
    (h : exec (host.next ⟨top :: beneath, extra⟩ edgeId) m = (.ok n, m')) :
    (unwind top beneath edgeId).group = n.group ∧
      ⟨(unwind top beneath edgeId).frames, extra⟩ = n.session ∧
      m.wrote (unwind top beneath edgeId).writes = m' := by
  rw [exec_next_healthy healthy] at h
  obtain ⟨reached, stored⟩ := Prod.mk.inj h
  obtain rfl := Except.ok.inj reached
  exact ⟨rfl, rfl, stored⟩

end Memory

end Dialogue
