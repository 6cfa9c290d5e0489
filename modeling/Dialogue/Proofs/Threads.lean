import Mathlib.Data.List.Chain
import Dialogue.Proofs.Moves

/-!
# Frames that write to one result

In a live session the frames that carry one result id stand next to each other; all of them but the
deepest merge, and the answers of each go on from those of the next one beneath (`Threaded`). Hence
the frame nearest the front that carries a result id has exactly the answers that the driver
appended while the active frame carried it (`first_carrier_answers`): merging frames start from a
copy and hand it back, forks start with none, and a return may pop any mixture of both.
-/

namespace Dialogue

/-- Whether a frame writes to a result. -/
def Frame.carries (f : Frame) (resultId : String) : Bool := f.resultId == some resultId

@[simp] theorem Frame.carries_iff {f : Frame} {r : String} :
    f.carries r = true ↔ f.resultId = some r := by simp [carries]

/-- A merging frame writes to the result of the frame beneath, and its answers go on from there. -/
def Frame.Joined (f beneath : Frame) : Prop :=
  f.merges = true → f.resultId = beneath.resultId ∧ beneath.answers <+: f.answers

/-- A frame that does not merge writes to another result than a frame further down. -/
def Frame.Apart (f below : Frame) : Prop := f.merges = false → f.resultId ≠ below.resultId

/-- The stack of a live session. -/
structure Threaded (frames : List Frame) : Prop where
  live : ∀ f ∈ frames, f.resultId ≠ none
  joined : frames.IsChain Frame.Joined
  apart : frames.Pairwise Frame.Apart

section

variable {f g top parent : Frame} {beneath : List Frame}

/-- The first frame may gain answers, and change in what does not matter here. -/
theorem joined_head (h : (f :: beneath).IsChain Frame.Joined) (result : g.resultId = f.resultId)
    (merges : g.merges = f.merges) (answers : f.answers <+: g.answers) :
    (g :: beneath).IsChain Frame.Joined := by
  refine h.imp_head fun joined hm => ?_
  obtain ⟨same, goes⟩ := joined (merges ▸ hm)
  exact ⟨result.trans same, goes.trans answers⟩

/-- A frame has all its answers, and may have more, once the one above is popped. -/
theorem Frame.Joined.resumed (h : top.Joined parent) :
    parent.answers <+: (parent.resumed top).answers := by
  unfold Frame.resumed
  split
  · rename_i hm
    exact (h hm).2
  · exact List.prefix_refl _

end

namespace Threaded

variable {f g top parent : Frame} {beneath : List Frame}

theorem single (h : f.resultId ≠ none) : Threaded [f] :=
  ⟨by simpa using h, .singleton f, List.pairwise_singleton ..⟩

theorem tail (h : Threaded (f :: beneath)) : Threaded beneath :=
  ⟨fun g hg => h.live g (List.mem_cons_of_mem _ hg), h.joined.tail, h.apart.tail⟩

/-- The first frame may gain answers, and change in what does not matter here. -/
theorem head (h : Threaded (f :: beneath)) (result : g.resultId = f.resultId)
    (merges : g.merges = f.merges) (answers : f.answers <+: g.answers) :
    Threaded (g :: beneath) := by
  refine ⟨?_, ?_, ?_⟩
  · intro k hk
    rcases List.mem_cons.mp hk with rfl | hk
    · rw [result]
      exact h.live f List.mem_cons_self
    · exact h.live k (List.mem_cons_of_mem _ hk)
  · exact joined_head h.joined result merges answers
  · obtain ⟨ha, hrest⟩ := List.pairwise_cons.mp h.apart
    refine List.pairwise_cons.mpr ⟨fun k hk hm => ?_, hrest⟩
    rw [result]
    exact ha k hk (merges ▸ hm)

/-- A merging frame that starts from a copy of its caller's answers may be pushed. -/
theorem push_joined (h : Threaded (f :: beneath)) (merges : top.merges = true)
    (result : top.resultId = f.resultId) (answers : f.answers <+: top.answers) :
    Threaded (top :: f :: beneath) := by
  refine ⟨?_, List.isChain_cons_cons.mpr ⟨fun _ => ⟨result, answers⟩, h.joined⟩, ?_⟩
  · intro k hk
    rcases List.mem_cons.mp hk with rfl | hk
    · rw [result]
      exact h.live f List.mem_cons_self
    · exact h.live k hk
  · exact List.pairwise_cons.mpr ⟨fun k _ hm => by simp [merges] at hm, h.apart⟩

/-- A frame with a result of its own may be pushed. -/
theorem push_apart (h : Threaded beneath) (merges : top.merges = false) (live : top.resultId ≠ none)
    (new : ∀ k ∈ beneath, top.resultId ≠ k.resultId) : Threaded (top :: beneath) := by
  refine ⟨?_, ?_, List.pairwise_cons.mpr ⟨fun k hk _ => new k hk, h.apart⟩⟩
  · intro k hk
    rcases List.mem_cons.mp hk with rfl | hk
    · exact live
    · exact h.live k hk
  · cases beneath with
    | nil => exact .singleton top
    | cons k rest =>
      exact List.isChain_cons_cons.mpr ⟨fun hm => by simp [merges] at hm, h.joined⟩

theorem resumed_answers (h : Threaded (top :: parent :: beneath)) :
    parent.answers <+: (parent.resumed top).answers :=
  (List.isChain_cons_cons.mp h.joined).1.resumed

/-- The frames stay threaded when the first one is popped. -/
theorem pop (h : Threaded (top :: parent :: beneath)) :
    Threaded (parent.resumed top :: beneath) :=
  h.tail.head (by simp) (by simp) h.resumed_answers

/-- The frame beneath a merging one carries the same result. -/
theorem resultId_of_merges (h : Threaded (top :: parent :: beneath)) (hm : top.merges = true) :
    top.resultId = parent.resultId :=
  ((List.isChain_cons_cons.mp h.joined).1 hm).1

/-- No frame beneath one that does not merge carries the same result. -/
theorem not_carries (h : Threaded (top :: beneath)) (hm : top.merges = false) {r : String}
    (hr : top.resultId = some r) : ∀ k ∈ beneath, k.resultId ≠ some r := by
  intro k hk hk'
  exact (List.pairwise_cons.mp h.apart).1 k hk hm (hr.trans hk'.symm)

/-- Frames that do not merge write to results of their own, also while they are popped. -/
theorem unwind_apart (h : Threaded (top :: beneath)) (edgeId : Option String) :
    ((unwind top beneath edgeId).popped ++ (unwind top beneath edgeId).frames).Pairwise
      Frame.Apart := by
  have shells : (((unwind top beneath edgeId).popped ++
      (unwind top beneath edgeId).frames).map Frame.shell).Pairwise Frame.Apart := by
    rw [unwind_shell]
    exact List.pairwise_map.mpr h.apart
  exact (List.pairwise_map (f := Frame.shell)).mp shells

/-- A result that is closed by a return is not carried any more by the frames that are left. -/
theorem closing_left (h : Threaded (top :: beneath)) {edgeId : Option String} {w : ResultWrite}
    (hw : w ∈ (unwind top beneath edgeId).writes) :
    ∀ k ∈ (unwind top beneath edgeId).frames, k.resultId ≠ some w.id := by
  intro k hk same
  obtain ⟨f, hf, fork, carries, -⟩ := Unwound.mem_writes hw
  exact (List.pairwise_append.mp (h.unwind_apart edgeId)).2.2 f hf k hk fork
    (carries.trans same.symm)

end Threaded

/-- The answers of the first frame that carries a result are those that were given to it. -/
def Answered (given : String → List Answer) (frames : List Frame) : Prop :=
  ∀ r f, frames.find? (·.carries r) = some f → f.answers = given r

/-- The first frame that carries a result, behind one frame. -/
theorem find?_carries_cons (r : String) (f : Frame) (beneath : List Frame) :
    (f :: beneath).find? (·.carries r) =
      if f.resultId = some r then some f else beneath.find? (·.carries r) := by
  by_cases h : f.resultId = some r <;> simp [h, Frame.carries]

namespace Answered

variable {given : String → List Answer} {f g top parent : Frame} {beneath : List Frame}

theorem head (h : Answered given (f :: beneath)) (result : g.resultId = f.resultId)
    (answers : g.answers = f.answers) : Answered given (g :: beneath) := by
  intro r k hk
  have old := h r
  rw [find?_carries_cons] at hk old
  rw [result] at hk
  split_ifs at hk old with hr
  · obtain rfl : g = k := by simpa using hk
    rw [answers]
    exact old f rfl
  · exact old k hk

/-- Pushing a frame leaves the others as they are answered, if the new one is answered. -/
theorem push (h : Answered given beneath)
    (new : ∀ r, top.resultId = some r → top.answers = given r) :
    Answered given (top :: beneath) := by
  intro r k hk
  rw [find?_carries_cons] at hk
  split_ifs at hk with hr
  · obtain rfl : top = k := by simpa using hk
    exact new r hr
  · exact h r k hk

/-- The first frame's answers are those given to its result. -/
theorem first (h : Answered given (f :: beneath)) {r : String} (hr : f.resultId = some r) :
    f.answers = given r := by
  refine h r f ?_
  rw [find?_carries_cons, if_pos hr]

/-- A pop hands the answers of a merging frame to the frame beneath, and drops those of a fork
together with its result. -/
theorem pop (h : Answered given (top :: parent :: beneath))
    (ht : Threaded (top :: parent :: beneath)) :
    Answered given (parent.resumed top :: beneath) := by
  intro r k hk
  have old := h r
  simp only [find?_carries_cons] at hk old
  cases hm : top.merges with
  | true =>
    have same := ht.resultId_of_merges hm
    have resumed : parent.resumed top = parent.absorb top := by simp [Frame.resumed, hm]
    rw [resumed] at hk
    change (if parent.resultId = some r then _ else _) = some k at hk
    by_cases hr : parent.resultId = some r
    · rw [if_pos hr] at hk
      obtain rfl : parent.absorb top = k := by simpa using hk
      exact old top (if_pos (same.trans hr))
    · rw [if_neg hr] at hk
      exact old k (by rw [if_neg (same ▸ hr), if_neg hr, hk])
  | false =>
    have resumed : parent.resumed top = parent := by simp [Frame.resumed, hm]
    rw [resumed] at hk
    -- what is found beneath carries `r`, so the fork on top does not
    have other : top.resultId ≠ some r := by
      intro hr
      have none := ht.not_carries hm hr
      split_ifs at hk with hp
      · exact none parent List.mem_cons_self hp
      · have := List.find?_some hk
        exact none k (List.mem_cons_of_mem _ (List.mem_of_find?_eq_some hk)) (by simpa using this)
    exact old k (by rw [if_neg other]; exact hk)

end Answered

/-! ### Live sessions -/

/-- What holds of a live session and the answers given so far: the frames are threaded and
answered, and neither a carried id nor one that answers were given to is drawn again. -/
structure World.Live (w : World) (given : String → List Answer) : Prop where
  active : w.session.frames ≠ []
  threaded : Threaded w.session.frames
  answered : Answered given w.session.frames
  carried : ∀ f ∈ w.session.frames, ∀ r, f.resultId = some r → w.memory.ids.Spent r
  unused : ∀ r, ¬ w.memory.ids.Spent r → given r = []
  fresh : w.memory.ids.NeverRepeats

namespace World

variable {given : String → List Answer}

theorem live_start (flow : Flow) {r₀ : String} {m : Memory} (fresh : m.ids.NeverRepeats)
    (spent : m.ids.Spent r₀) : (start flow (some r₀) m).Live fun _ => [] where
  active := by simp [start, Session.start]
  threaded := .single (by simp [Frame.root])
  answered := by
    intro r f hf
    obtain rfl : f = Frame.root flow (some r₀) := by
      simpa [start, Session.start] using List.mem_of_find?_eq_some hf
    rfl
  carried := by
    intro f hf r hr
    obtain rfl : f = Frame.root flow (some r₀) := by simpa [start, Session.start] using hf
    obtain rfl : r₀ = r := by simpa [Frame.root] using hr
    exact spent
  unused _ _ := rfl
  fresh := fresh

namespace Live

variable {current top caller : Frame} {beneath frames : List Frame} {extra : Entries}
  {m m' : Memory}

/-- The frames stay as they are while ids may be drawn. -/
theorem rest (h : World.Live ⟨⟨frames, extra⟩, m⟩ given) (onward : m.ids.Onward m'.ids) :
    World.Live ⟨⟨frames, extra⟩, m'⟩ given :=
  ⟨h.active, h.threaded, h.answered, fun f hf r hr => (h.carried f hf r hr).onward onward,
    fun r hr => h.unused r fun spent => hr (spent.onward onward), h.fresh.onward onward⟩

/-- The first frame may change in what is neither its result, nor how it returns, nor its answers.
-/
theorem touch (h : World.Live ⟨⟨current :: beneath, extra⟩, m⟩ given)
    (result : caller.resultId = current.resultId) (merges : caller.merges = current.merges)
    (answers : caller.answers = current.answers) :
    World.Live ⟨⟨caller :: beneath, extra⟩, m⟩ given where
  active := by simp
  threaded := h.threaded.head result merges (by simp [answers])
  answered := h.answered.head result answers
  carried := by
    intro f hf r hr
    rcases List.mem_cons.mp hf with rfl | hf
    · exact h.carried current List.mem_cons_self r (result ▸ hr)
    · exact h.carried f (List.mem_cons_of_mem _ hf) r hr
  unused := h.unused
  fresh := h.fresh

/-- The active frame is left waiting. -/
theorem pause (h : World.Live ⟨⟨current :: beneath, extra⟩, m⟩ given) (b : Block)
    (ids : IdSource) :
    World.Live ⟨⟨(current.pause b ids).caller :: beneath, extra⟩, m⟩ given :=
  h.touch (by simp) (by simp) (by simp)

/-- A frame is pushed that merges into the active one. -/
theorem push_joined (h : World.Live ⟨⟨current :: beneath, extra⟩, m⟩ given)
    (merges : top.merges = true) (result : top.resultId = current.resultId)
    (answers : top.answers = current.answers) :
    World.Live ⟨⟨top :: current :: beneath, extra⟩, m⟩ given where
  active := by simp
  threaded := h.threaded.push_joined merges result (by simp [answers])
  answered := h.answered.push fun r hr => by
    rw [answers]
    exact h.answered.first (result ▸ hr)
  carried := by
    intro f hf r hr
    rcases List.mem_cons.mp hf with rfl | hf
    · exact h.carried current List.mem_cons_self r (result ▸ hr)
    · exact h.carried f hf r hr
  unused := h.unused
  fresh := h.fresh

/-- A frame is pushed with a result of its own, under an id that was drawn for it. -/
theorem push_apart (h : World.Live ⟨⟨frames, extra⟩, m⟩ given) (onward : m.ids.Onward m'.ids)
    (merges : top.merges = false) {r : String} (result : top.resultId = some r)
    (drawn : m.ids.Draws m'.ids r) (answers : top.answers = []) :
    World.Live ⟨⟨top :: frames, extra⟩, m'⟩ given where
  active := by simp
  threaded := by
    refine h.threaded.push_apart merges (by simp [result]) fun k hk same => ?_
    exact drawn.not_spent (h.carried k hk r (same ▸ result))
  answered := h.answered.push fun r' hr' => by
    obtain rfl : r = r' := by simpa [result] using hr'
    rw [answers, h.unused r drawn.not_spent]
  carried := by
    intro f hf r' hr'
    rcases List.mem_cons.mp hf with rfl | hf
    · obtain rfl : r = r' := by simpa [result] using hr'
      exact drawn.spent h.fresh onward
    · exact (h.carried f hf r' hr').onward onward
  unused r' hr' := h.unused r' fun spent => hr' (spent.onward onward)
  fresh := h.fresh.onward onward

/-- The active frame gets an answer. -/
theorem answer (h : World.Live ⟨⟨current :: beneath, extra⟩, m⟩ given) (a : Answer) :
    World.Live ⟨⟨current.addAnswer a :: beneath, extra⟩, m⟩
      fun r => given r ++ if current.resultId = some r then [a] else [] where
  active := by simp
  threaded := h.threaded.head rfl rfl (List.prefix_append ..)
  answered := by
    intro r f hf
    have old := h.answered r
    rw [find?_carries_cons] at hf old
    change (if current.resultId = some r then _ else _) = some f at hf
    split_ifs at hf old with hr
    · obtain rfl : current.addAnswer a = f := by simpa using hf
      simp [Frame.addAnswer, old current rfl, hr]
    · simp [old f hf, hr]
  carried := by
    intro f hf r hr
    rcases List.mem_cons.mp hf with rfl | hf
    · exact h.carried current List.mem_cons_self r hr
    · exact h.carried f (List.mem_cons_of_mem _ hf) r hr
  unused := by
    intro r hr
    have other : current.resultId ≠ some r :=
      fun same => hr (h.carried current List.mem_cons_self r same)
    simp [h.unused r hr, other]
  fresh := h.fresh

/-- An edge is followed. -/
theorem unwind (h : World.Live ⟨⟨current :: beneath, extra⟩, m⟩ given) (edgeId : Option String) :
    World.Live ⟨⟨(unwind current beneath edgeId).frames, extra⟩, m⟩ given := by
  have left := unwind_frames (P := fun fs => Threaded fs ∧ Answered given fs)
    (fun _ _ _ hp => ⟨hp.1.pop, hp.2.pop hp.1⟩) beneath current edgeId ⟨h.threaded, h.answered⟩
  refine ⟨unwind_frames_ne_nil beneath current edgeId, left.1, left.2, ?_, h.unused, h.fresh⟩
  intro f hf r hr
  obtain ⟨k, hk, result, -⟩ := unwind_kept (List.mem_append_right _ hf)
  exact h.carried k hk r (result.trans hr)

/-- A move keeps a live session live, and the answers given are those before and those of the move.
-/
theorem move {w : World} (h : w.Live given) (config : Config) (mv : Move) :
    (w.move config mv).Live fun r => given r ++ w.gives r mv := by
  obtain ⟨⟨frames, extra⟩, m⟩ := w
  obtain ⟨current, beneath, rfl⟩ := List.exists_cons_of_ne_nil h.active
  have done := turn config current beneath extra m mv
  generalize World.move config _ mv = w' at done ⊢
  cases done with
  | idle b calls =>
    simp only [gives, List.append_nil]
    exact h.rest (.refl _)
  | again b options groupId p _ _ pushed =>
    simp only [gives, List.append_nil]
    subst pushed
    have paused := h.pause b m.ids
    exact (paused.push_joined rfl (by simp) (by simp)).rest
      (current.onward_pushAgain b groupId m.ids)
  | other b options flowId linked groupId p _ _ _ _ pushed =>
    simp only [gives, List.append_nil]
    have paused := h.pause b m.ids
    generalize current.flow.mergesLinked _ _ = merges at pushed
    subst pushed
    have onward := current.onward_pushOther beneath b merges linked groupId m.ids
    cases merges with
    | true =>
      refine (paused.push_joined (m := m) rfl ?_ (by simp)).rest onward
      rw [Frame.pushOther_joins, Frame.pause_resultId]
    | false =>
      obtain ⟨r, result, drawn⟩ := current.pushOther_forks beneath b linked groupId m.ids
        (h.threaded.live current List.mem_cons_self)
      exact paused.push_apart onward rfl result drawn rfl
  | returned edgeId u unwound =>
    simp only [gives, List.append_nil]
    subst unwound
    exact (h.unwind edgeId).rest (.refl _)
  | stuck edgeId =>
    simp only [gives, List.append_nil]
    exact h.rest (.refl _)
  | answered a => exact h.answer a
  | edited vars =>
    simp only [gives, List.append_nil]
    exact h.touch rfl rfl rfl
  | restocked drafts published =>
    simp only [gives, List.append_nil]
    exact h.rest (.refl _)

end Live

end World

/-- A live session stays live, whatever is done to it. -/
theorem World.live_play (config : Config) (flow : Flow) {r₀ : String} {m : Memory}
    (fresh : m.ids.NeverRepeats) (spent : m.ids.Spent r₀) (moves : List Move) :
    ((start flow (some r₀) m).play config moves).Live
      fun r => (start flow (some r₀) m).given config r moves := by
  refine play_induct (P := fun moves w => w.Live fun r => given config r _ moves) config _ ?_ ?_
    moves
  · exact live_start flow fresh spent
  · intro moves mv h
    simp only [given_concat]
    exact h.move config mv

/-- If a frame carries a result, the first one that does holds the answers given to the result, in
order and each once. -/
theorem first_carrier_answers (config : Config) (flow : Flow) {r₀ : String} {m : Memory}
    (fresh : m.ids.NeverRepeats) (spent : m.ids.Spent r₀) (moves : List Move) {r : String}
    (carried : ∃ k ∈ ((World.start flow (some r₀) m).play config moves).session.frames,
      k.resultId = some r) :
    ∃ f, ((World.start flow (some r₀) m).play config moves).session.frames.find? (·.carries r) =
        some f ∧
      f.answers = (World.start flow (some r₀) m).given config r moves := by
  obtain ⟨k, hk, hr⟩ := carried
  have found : (((World.start flow (some r₀) m).play config moves).session.frames.find?
      (·.carries r)).isSome := List.find?_isSome.mpr ⟨k, hk, Frame.carries_iff.mpr hr⟩
  obtain ⟨f, first⟩ := Option.isSome_iff_exists.mp found
  exact ⟨f, first, (World.live_play config flow fresh spent moves).answered r f first⟩

/-- A flow that links to itself and then joins a survey: the answers given in each place end up in
the one result. -/
theorem first_carrier_answers_sample :
    ∃ f, ((World.start Sample.flow (some "r") Sample.memory).play .default
        Sample.joining).session.frames.find? (·.carries "r") = some f ∧
      f.answers = [⟨"name", "Ada", none⟩, ⟨"age", "36", none⟩, ⟨"end", "yes", none⟩] :=
  first_carrier_answers .default Sample.flow Sample.neverRepeats Sample.spent Sample.joining
    ⟨_, List.mem_cons_self, rfl⟩

end Dialogue
