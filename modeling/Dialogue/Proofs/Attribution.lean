import Dialogue.Proofs.Threads

/-!
# Whose flow a record names

A result is owned by the flow of the deepest frame that carries it. A link into another flow records
the result of the active frame, which need not be the owner: `records_name_owner` says that the
record names the owner all the same. The reason is that a merging frame of another flow is either
answered or has been pushed when the record was there (`Frame.Settled`), so that an unanswered frame
whose result is not on record is of the owner's flow (`owner_of_unrecorded`).
-/

namespace Dialogue

/-- The id of the flow that owns a result: that of the deepest frame that carries it. -/
def ownerFlow? (r : String) (frames : List Frame) : Option String :=
  (frames.reverse.find? (·.carries r)).map (·.flow.id)

/-- No request noted in the journal failed. -/
def Memory.Unfailed (m : Memory) : Prop :=
  ∀ before call after, m.journal = before ++ call :: after → m.outage before call = none

theorem Memory.Unfailed.before {m m' : Memory} (h : m'.Unfailed) (outage : m'.outage = m.outage)
    (journal : m.journal <+: m'.journal) : m.Unfailed := by
  intro before call after hj
  obtain ⟨later, hl⟩ := journal
  rw [← outage]
  exact h before call (after ++ later) (by rw [← hl, hj]; simp)

section

variable {r : String} {top parent current caller : Frame} {beneath frames : List Frame}
  {results results' : Ledger}

/-! ### Owners -/

@[simp] theorem ownerFlow?_nil (r : String) : ownerFlow? r [] = none := rfl

theorem ownerFlow?_append (r : String) (a b : List Frame) :
    ownerFlow? r (a ++ b) = (ownerFlow? r b).or (ownerFlow? r a) := by
  simp only [ownerFlow?, List.reverse_append, List.find?_append]
  cases b.reverse.find? (·.carries r) <;> rfl

theorem ownerFlow?_cons (r : String) (f : Frame) (beneath : List Frame) :
    ownerFlow? r (f :: beneath) =
      (ownerFlow? r beneath).or (if f.resultId = some r then some f.flow.id else none) := by
  rw [← List.singleton_append, ownerFlow?_append]
  by_cases h : f.resultId = some r <;> simp [ownerFlow?, Frame.carries, h]

theorem ownerFlow?_eq_none :
    ownerFlow? r frames = none ↔ ∀ f ∈ frames, f.resultId ≠ some r := by
  simp [ownerFlow?, Frame.carries]

theorem ownerFlow?_shells (r : String) (frames : List Frame) :
    ownerFlow? r (frames.map Frame.shell) = ownerFlow? r frames := by
  simp only [ownerFlow?, ← List.map_reverse, List.find?_map, Option.map_map]
  rfl

theorem carried_of_owner {flowId : String} (h : ownerFlow? r frames = some flowId) :
    ∃ f ∈ frames, f.resultId = some r := by
  by_contra none
  simp only [not_exists, not_and] at none
  rw [ownerFlow?_eq_none.mpr none] at h
  contradiction

/-- A return changes no owner, as long as the popped frames count. -/
theorem ownerFlow?_unwind (r : String) (top : Frame) (beneath : List Frame)
    (edgeId : Option String) :
    ownerFlow? r ((unwind top beneath edgeId).popped ++ (unwind top beneath edgeId).frames) =
      ownerFlow? r (top :: beneath) := by
  rw [← ownerFlow?_shells, unwind_shell, ownerFlow?_shells]

/-- A frame owns its result if no frame beneath carries it. -/
theorem ownerFlow?_of_deepest (above : List Frame) (carries : current.resultId = some r)
    (deepest : ∀ k ∈ beneath, k.resultId ≠ some r) :
    ownerFlow? r (above ++ current :: beneath) = some current.flow.id := by
  rw [ownerFlow?_append, ownerFlow?_cons, ownerFlow?_eq_none.mpr deepest, if_pos carries]
  rfl

/-- A frame whose result is closed by a return is the owner of that result. -/
theorem owner_of_closing (h : Threaded (top :: beneath)) {edgeId : Option String} {w : ResultWrite}
    (hw : w ∈ (unwind top beneath edgeId).writes) :
    ownerFlow? w.id (top :: beneath) = some w.flow.id := by
  obtain ⟨f, hf, fork, carries, hw⟩ := Unwound.mem_writes hw
  obtain ⟨above, under, split⟩ := List.append_of_mem hf
  have apart := h.unwind_apart edgeId
  rw [split, List.append_assoc, List.cons_append, List.pairwise_append] at apart
  have deepest := (List.pairwise_cons.mp apart.2.1).1
  rw [← ownerFlow?_unwind w.id top beneath edgeId, split, List.append_assoc, List.cons_append,
    ownerFlow?_of_deepest above carries fun k hk same =>
      deepest k hk fork (carries.trans same.symm), hw]

/-! ### Frames and records -/

/-- A merging frame is of the flow beneath, or it is answered, or its result is on record. -/
def Frame.Settled (results : Ledger) (f beneath : Frame) : Prop :=
  f.merges = true → f.flow.id = beneath.flow.id ∨ f.answers ≠ [] ∨
    ∃ r, f.resultId = some r ∧ results.get? r ≠ none

/-- Every record of a result that is carried names its owner. -/
structure Recorded (results : Ledger) (frames : List Frame) : Prop where
  attributed : ∀ r flowId row, ownerFlow? r frames = some flowId → results.get? r = some row →
    row.flowId = flowId
  settled : frames.IsChain (Frame.Settled results)

/-- An unanswered frame whose result is not on record is of the owner's flow. -/
theorem owner_of_unrecorded : ∀ (beneath : List Frame) (top : Frame), Threaded (top :: beneath) →
    (top :: beneath).IsChain (Frame.Settled results) → top.answers = [] → top.resultId = some r →
    results.get? r = none → ownerFlow? r (top :: beneath) = some top.flow.id
  | [], top, _, _, _, carries, _ => by simp [ownerFlow?_cons, carries]
  | parent :: beneath, top, threaded, settled, unanswered, carries, missing => by
    cases hm : top.merges with
    | false =>
      rw [ownerFlow?_cons, ownerFlow?_eq_none.mpr (threaded.not_carries hm carries), if_pos carries]
      rfl
    | true =>
      obtain ⟨here, rest⟩ := List.isChain_cons_cons.mp settled
      obtain ⟨same, goes⟩ := (List.isChain_cons_cons.mp threaded.joined).1 hm
      have flows : top.flow.id = parent.flow.id := by
        rcases here hm with flows | answered | ⟨r', carries', recorded⟩
        · exact flows
        · exact absurd unanswered answered
        · obtain rfl : r' = r := by simpa [carries] using carries'.symm
          exact absurd missing recorded
      -- the answers beneath are a prefix of none, so the frame beneath is unanswered as well
      have owner := owner_of_unrecorded beneath parent threaded.tail rest
        (List.prefix_nil.mp (unanswered ▸ goes)) (same ▸ carries) missing
      rw [ownerFlow?_cons, owner, flows]
      rfl

namespace Recorded

/-- Records may be added for the owner, or replaced by such. -/
theorem rewrite (h : Recorded results frames)
    (rows : ∀ r row, results'.get? r = some row →
      results.get? r = some row ∨ ownerFlow? r frames = some row.flowId)
    (kept : ∀ r, results.get? r ≠ none → results'.get? r ≠ none) : Recorded results' frames where
  attributed r flowId row owner found := by
    rcases rows r row found with old | new
    · exact h.attributed r flowId row owner old
    · simpa [owner] using new.symm
  settled := by
    refine h.settled.imp fun f g hs hm => ?_
    rcases hs hm with flows | answered | ⟨r, carries, recorded⟩
    · exact .inl flows
    · exact .inr (.inl answered)
    · exact .inr (.inr ⟨r, carries, kept r recorded⟩)

/-- The first frame may gain answers, and change in what does not matter here. -/
theorem head (h : Recorded results (current :: beneath))
    (result : caller.resultId = current.resultId) (merges : caller.merges = current.merges)
    (flow : caller.flow.id = current.flow.id) (answers : current.answers <+: caller.answers) :
    Recorded results (caller :: beneath) where
  attributed r flowId row owner := by
    rw [ownerFlow?_cons, result, flow, ← ownerFlow?_cons] at owner
    exact h.attributed r flowId row owner
  settled := by
    cases beneath with
    | nil => exact .singleton caller
    | cons k rest =>
      obtain ⟨hs, hrest⟩ := List.isChain_cons_cons.mp h.settled
      refine List.isChain_cons_cons.mpr ⟨fun hm => ?_, hrest⟩
      rcases hs (merges ▸ hm) with flows | answered | ⟨r, carries, recorded⟩
      · exact .inl (flow.trans flows)
      · exact .inr (.inl fun none => answered (List.prefix_nil.mp (none ▸ answers)))
      · exact .inr (.inr ⟨r, result.trans carries, recorded⟩)

/-- A merging frame leaves the owners as they are. -/
theorem push_joined (h : Recorded results (current :: beneath))
    (result : top.resultId = current.resultId) (settled : Frame.Settled results top current) :
    Recorded results (top :: current :: beneath) where
  attributed r flowId row owner := by
    refine h.attributed r flowId row ?_
    rw [ownerFlow?_cons] at owner
    cases beneath_owner : ownerFlow? r (current :: beneath) with
    | some _ => simpa [beneath_owner] using owner
    | none =>
      have carries : top.resultId ≠ some r :=
        result ▸ ownerFlow?_eq_none.mp beneath_owner current List.mem_cons_self
      simp [beneath_owner, carries] at owner
  settled := List.isChain_cons_cons.mpr ⟨settled, h.settled⟩

/-- A frame may be pushed whose result is not on record. -/
theorem push_apart (h : Recorded results (current :: beneath)) (merges : top.merges = false)
    (result : top.resultId = some r) (missing : results.get? r = none) :
    Recorded results (top :: current :: beneath) where
  attributed r' flowId row owner found := by
    have other : top.resultId ≠ some r' := by
      intro same
      obtain rfl : r = r' := by simpa [result] using same
      simp [missing] at found
    rw [ownerFlow?_cons, if_neg other, Option.or_none] at owner
    exact h.attributed r' flowId row owner found
  settled := List.isChain_cons_cons.mpr ⟨fun hm => by simp [merges] at hm, h.settled⟩

/-- Records stay attributed when the first frame is popped. -/
theorem pop (h : Recorded results (top :: parent :: beneath))
    (threaded : Threaded (top :: parent :: beneath)) :
    Recorded results (parent.resumed top :: beneath) := by
  have beneath_only : Recorded results (parent :: beneath) := by
    refine ⟨fun r flowId row owner => h.attributed r flowId row ?_, h.settled.tail⟩
    rw [ownerFlow?_cons, owner]
    rfl
  exact beneath_only.head (by simp) (by simp) (by simp) threaded.resumed_answers

end Recorded

/-! ### Records of a live session -/

/-- What holds of the records of a live session. -/
structure World.Attributed (w : World) : Prop where
  recorded : Recorded w.memory.results w.session.frames
  known : ∀ r, w.memory.results.get? r ≠ none → w.memory.ids.Spent r
  unclosed : w.memory.Unfailed → ∀ f ∈ w.session.frames, ∀ r row, f.resultId = some r →
    w.memory.results.get? r = some row → row.isCompleted = false

namespace World.Attributed

variable {given : String → List Answer} {extra : Entries} {m m' : Memory}

/-- The frames and the records stay as they are. -/
theorem rest (h : World.Attributed ⟨⟨frames, extra⟩, m⟩) (same : m'.results = m.results)
    (onward : m.ids.Onward m'.ids) (outage : m'.outage = m.outage)
    (journal : m.journal <+: m'.journal) : World.Attributed ⟨⟨frames, extra⟩, m'⟩ where
  recorded := by
    rw [same]
    exact h.recorded
  known r hr := (h.known r (same ▸ hr)).onward onward
  unclosed unfailed f hf r row carries found :=
    h.unclosed (unfailed.before outage journal) f hf r row carries (same ▸ found)

/-- The first frame may gain answers, and change in what does not matter here. -/
theorem touch (h : World.Attributed ⟨⟨current :: beneath, extra⟩, m⟩)
    (result : caller.resultId = current.resultId) (merges : caller.merges = current.merges)
    (flow : caller.flow.id = current.flow.id) (answers : current.answers <+: caller.answers) :
    World.Attributed ⟨⟨caller :: beneath, extra⟩, m⟩ where
  recorded := h.recorded.head result merges flow answers
  known := h.known
  unclosed unfailed f hf := by
    rcases List.mem_cons.mp hf with rfl | hf
    · rw [result]
      exact h.unclosed unfailed current List.mem_cons_self
    · exact h.unclosed unfailed f (List.mem_cons_of_mem _ hf)

/-- The active frame is left waiting. -/
theorem pause (h : World.Attributed ⟨⟨current :: beneath, extra⟩, m⟩) (b : Block)
    (ids : IdSource) :
    World.Attributed ⟨⟨(current.pause b ids).caller :: beneath, extra⟩, m⟩ :=
  h.touch (by simp) (by simp) (by simp) (by simp)

/-- A frame is pushed that merges into the active one. -/
theorem push_joined (h : World.Attributed ⟨⟨current :: beneath, extra⟩, m⟩)
    (result : top.resultId = current.resultId) (settled : Frame.Settled m.results top current) :
    World.Attributed ⟨⟨top :: current :: beneath, extra⟩, m⟩ where
  recorded := h.recorded.push_joined result settled
  known := h.known
  unclosed unfailed f hf := by
    rcases List.mem_cons.mp hf with rfl | hf
    · rw [result]
      exact h.unclosed unfailed current List.mem_cons_self
    · exact h.unclosed unfailed f hf

/-- A frame is pushed with a result of its own, under an id that was drawn for it. -/
theorem push_apart (h : World.Attributed ⟨⟨current :: beneath, extra⟩, m⟩)
    (merges : top.merges = false) (result : top.resultId = some r) (new : ¬ m.ids.Spent r) :
    World.Attributed ⟨⟨top :: current :: beneath, extra⟩, m⟩ := by
  have missing : m.results.get? r = none := by
    by_contra found
    exact new (h.known r found)
  refine ⟨h.recorded.push_apart merges result missing, h.known, fun unfailed f hf => ?_⟩
  rcases List.mem_cons.mp hf with rfl | hf
  · intro r' row carries found
    obtain rfl : r = r' := by simpa [result] using carries
    simp [missing] at found
  · exact h.unclosed unfailed f hf

/-- The result of the active frame is recorded if the frame is unanswered. -/
theorem opened (h : World.Attributed ⟨⟨current :: beneath, extra⟩, m⟩)
    (live : World.Live ⟨⟨current :: beneath, extra⟩, m⟩ given) :
    World.Attributed ⟨⟨current :: beneath, extra⟩, m.opened current⟩ where
  recorded := by
    refine h.recorded.rewrite (fun r row found => ?_) fun r recorded => ?_
    · rcases Memory.opened_get? found with old | ⟨missing, carries, unanswered, rfl⟩
      · exact .inl old
      · exact .inr (owner_of_unrecorded beneath current live.threaded h.recorded.settled unanswered
          carries missing)
    · obtain ⟨row, found⟩ := Option.ne_none_iff_exists'.mp recorded
      simp [Memory.opened_kept current found]
  known r recorded := by
    obtain ⟨row, found⟩ := Option.ne_none_iff_exists'.mp recorded
    rw [Memory.opened_ids]
    rcases Memory.opened_get? found with old | ⟨-, carries, -, -⟩
    · exact h.known r (by simp [old])
    · exact live.carried current List.mem_cons_self r carries
  unclosed unfailed f hf r row carries found := by
    rcases Memory.opened_get? found with old | ⟨-, -, -, rfl⟩
    · exact h.unclosed (unfailed.before (m.opened_outage current) (m.opened_journal current)) f hf r
        row carries old
    · rfl

/-- Some of the results are closed that a return is to close. -/
theorem wrote (h : World.Attributed ⟨⟨current :: beneath, extra⟩, m⟩)
    (live : World.Live ⟨⟨current :: beneath, extra⟩, m⟩ given) (edgeId : Option String)
    (writes : List ResultWrite)
    (due : ∀ w ∈ writes, w ∈ (unwind current beneath edgeId).writes) :
    Recorded (m.wrote writes).results (current :: beneath) ∧
      ∀ r, (m.wrote writes).results.get? r ≠ none → m.ids.Spent r := by
  refine ⟨h.recorded.rewrite (fun r row found => ?_) fun r => Memory.wrote_recorded, ?_⟩
  · rcases Memory.wrote_get? found with old | ⟨w, hw, rfl, rfl⟩
    · exact .inl old
    · exact .inr (owner_of_closing live.threaded (due w hw))
  · intro r recorded
    obtain ⟨row, found⟩ := Option.ne_none_iff_exists'.mp recorded
    rcases Memory.wrote_get? found with old | ⟨w, hw, rfl, -⟩
    · exact h.known r (by simp [old])
    · obtain ⟨f, hf, carries⟩ := carried_of_owner (owner_of_closing live.threaded (due w hw))
      exact live.carried f hf w.id carries

/-- An edge is followed, and every result that is to be closed is closed. -/
theorem unwind (h : World.Attributed ⟨⟨current :: beneath, extra⟩, m⟩)
    (live : World.Live ⟨⟨current :: beneath, extra⟩, m⟩ given) (edgeId : Option String) :
    World.Attributed ⟨⟨(unwind current beneath edgeId).frames, extra⟩,
      m.wrote (unwind current beneath edgeId).writes⟩ := by
  obtain ⟨recorded, known⟩ := h.wrote live edgeId _ fun _ hw => hw
  refine ⟨?_, known, ?_⟩
  · exact (unwind_frames (P := fun fs => Threaded fs ∧ Recorded _ fs)
      (fun _ _ _ hp => ⟨hp.1.pop, hp.2.pop hp.1⟩) beneath current edgeId
      ⟨live.threaded, recorded⟩).2
  · intro unfailed f hf r row carries found
    have other : ∀ w ∈ (Dialogue.unwind current beneath edgeId).writes,
        w.id ≠ r := by
      rintro w hw rfl
      exact live.threaded.closing_left hw f hf carries
    obtain ⟨k, hk, result, -⟩ := unwind_kept (List.mem_append_right _ hf)
    rw [Memory.wrote_get?_of_ne other] at found
    exact h.unclosed (unfailed.before rfl (List.prefix_append ..)) k hk r row
      (result.trans carries) found

/-- A move of a live session keeps its records attributed. -/
theorem move {w : World} (h : w.Attributed) (live : w.Live given) (config : Config) (mv : Move) :
    (w.move config mv).Attributed := by
  obtain ⟨⟨frames, extra⟩, m⟩ := w
  obtain ⟨current, beneath, rfl⟩ := List.exists_cons_of_ne_nil live.active
  have done := turn config current beneath extra m mv
  generalize World.move config _ mv = w' at done ⊢
  cases done with
  | idle b calls => exact h.rest rfl (.refl _) rfl (List.prefix_append ..)
  | again b options groupId p _ _ pushed =>
    subst pushed
    have paused := h.pause b m.ids
    exact (paused.push_joined (by simp) fun _ => .inl (by simp)).rest rfl
      (current.onward_pushAgain b groupId m.ids) rfl (List.prefix_refl _)
  | other b options flowId linked groupId p _ _ _ _ pushed =>
    generalize hc : [Memory.reading current.isPreview flowId] = calls
    have noted : World.Attributed ⟨⟨current :: beneath, extra⟩, m.note calls⟩ :=
      h.rest rfl (.refl _) rfl (List.prefix_append ..)
    have opened := noted.opened (live.rest (.refl _))
    have paused := opened.pause b m.ids
    generalize current.flow.mergesLinked _ _ = merges at pushed
    subst pushed
    have onward := current.onward_pushOther beneath b merges linked groupId m.ids
    cases merges with
    | true =>
      have result : (current.pushOther beneath b true linked groupId m.ids).top.resultId =
          (current.pause b m.ids).caller.resultId := by
        rw [Frame.pushOther_joins, Frame.pause_resultId]
      refine (paused.push_joined result fun _ => .inr ?_).rest rfl (by simpa using onward) rfl
        (List.prefix_refl _)
      by_cases unanswered : current.answers = []
      · right
        obtain ⟨r, carries⟩ := Option.ne_none_iff_exists'.mp
          (live.threaded.live current List.mem_cons_self)
        refine ⟨r, ?_, Memory.opened_recorded _ unanswered carries⟩
        rw [Frame.pushOther_joins, carries]
      · left
        exact unanswered
    | false =>
      obtain ⟨r, result, drawn⟩ := current.pushOther_forks beneath b linked groupId m.ids
        (live.threaded.live current List.mem_cons_self)
      exact (paused.push_apart (m := (m.note calls).opened current) rfl result
        (by simpa using drawn.not_spent)).rest rfl (by simpa using onward) rfl (List.prefix_refl _)
  | returned edgeId u unwound =>
    subst unwound
    exact h.unwind live edgeId
  | stuck edgeId done w rest fault due fails =>
    obtain ⟨recorded, known⟩ := h.wrote live edgeId done fun v hv => by
      rw [due]
      exact List.mem_append_left _ hv
    refine ⟨recorded, known, fun unfailed => ?_⟩
    have succeeded := unfailed (m.wrote done).journal (.upsertResult w.id) [] rfl
    exact absurd (fails.symm.trans succeeded) (by simp)
  | answered a => exact h.touch rfl rfl rfl (List.prefix_append ..)
  | edited vars => exact h.touch rfl rfl rfl (List.prefix_refl _)
  | restocked drafts published => exact h.rest rfl (.refl _) rfl (List.prefix_refl _)

end World.Attributed

/-- The records of a live session stay attributed, whatever is done to it and whatever fails. -/
theorem World.attributed_play (config : Config) (flow : Flow) {r₀ : String} {m : Memory}
    (fresh : m.ids.NeverRepeats) (spent : m.ids.Spent r₀) (blank : m.results = .empty)
    (moves : List Move) : ((start flow (some r₀) m).play config moves).Attributed := by
  refine play_induct (P := fun _ w => w.Attributed) config _ ?_ (fun moves mv h => ?_) moves
  · refine ⟨⟨fun r flowId row _ found => ?_, .singleton _⟩, fun r recorded => ?_,
      fun _ f _ r row _ found => ?_⟩
    · simp [start, blank] at found
    · simp [start, blank] at recorded
    · simp [start, blank] at found
  · exact h.move (live_play config flow fresh spent moves) config mv

/-- Whichever requests fail, the record of a result that is carried names the flow of the deepest
frame that carries it; and unless one has failed, it is not completed. -/
theorem records_name_owner (config : Config) (flow : Flow) {r₀ : String} {m : Memory}
    (fresh : m.ids.NeverRepeats) (spent : m.ids.Spent r₀) (blank : m.results = .empty)
    (moves : List Move) {w : World}
    (reached : w = (World.start flow (some r₀) m).play config moves) :
    (∀ r owner row, w.session.frames.reverse.find? (·.carries r) = some owner →
      w.memory.results.get? r = some row → row.flowId = owner.flow.id) ∧
    (w.memory.Unfailed → ∀ f ∈ w.session.frames, ∀ r row, f.resultId = some r →
      w.memory.results.get? r = some row → row.isCompleted = false) := by
  subst reached
  have attributed := World.attributed_play config flow fresh spent blank moves
  refine ⟨fun r owner row deepest found => ?_, attributed.unclosed⟩
  refine attributed.recorded.attributed r owner.flow.id row ?_ found
  rw [ownerFlow?, deepest]
  rfl

/-- A survey that merges links to an audit; the result of both is recorded for the flow that linked
to the survey. -/
theorem records_name_owner_sample :
    ∃ row, ((World.start Sample.flow (some "r") Sample.memory).play .default
        [.execute Sample.join, .execute Sample.fork]).memory.results.get? "r" = some row ∧
      row.flowId = "f" ∧ row.isCompleted = false := by
  have owned := records_name_owner (m := Sample.memory) .default Sample.flow Sample.neverRepeats
    Sample.spent rfl [.execute Sample.join, .execute Sample.fork] rfl
  have unclosed := owned.2 (fun _ _ _ _ => rfl) _
    (List.mem_cons_of_mem _ (List.mem_cons_of_mem _ List.mem_cons_self)) "r" _ rfl rfl
  exact ⟨_, rfl, owned.1 "r" _ _ rfl rfl, unclosed⟩

end

end Dialogue
