import Dialogue.Proofs.Landing

/-!
# What the flows of a session keep

A property of flows is kept by a session (`Flow.Kept`) if it survives that ids are drawn, that the
variables are set, and that an edge under a new id to a group of the flow is added. If the root and
all stored definitions have it at the start, then all flows of the stack have it in every state of a
run (`World.Upholds.move`).
-/

namespace Dialogue

theorem IdSource.next_spent {ids : IdSource} (fresh : ids.NeverRepeats) :
    ids.next.2.Spent ids.next.1 :=
  ids.draws_next.spent fresh ids.onward_next

/-- One more edge, under the next id, is missed by the ids behind it. -/
theorem IdSource.Misses.withEdge {ids : IdSource} {f : Flow} (h : ids.Misses f)
    (fresh : ids.NeverRepeats) (t : Target) :
    ids.next.2.Misses (f.withEdge ⟨ids.next.1, .unset, t⟩) := by
  intro e he
  rcases List.mem_append.mp he with he | he
  · exact (h e he).onward ids.onward_next
  · rw [List.mem_singleton.mp he]
    exact IdSource.next_spent fresh

/-- A property of flows, which may speak of the ids to come, survives what a session does to a flow.
-/
structure Flow.Kept (P : IdSource → Flow → Prop) : Prop where
  onward : ∀ {a b : IdSource} {f : Flow}, a.Onward b → P a f → P b f
  withVariables : ∀ {ids : IdSource} {f : Flow} (vars : List Variable), P ids f →
    P ids (f.withVariables vars)
  withEdge : ∀ {ids : IdSource} {f : Flow} {t : Target}, ids.NeverRepeats →
    (f.group? t.groupId).isSome → P ids f → P ids.next.2 (f.withEdge ⟨ids.next.1, .unset, t⟩)

/-- Every flow that can be found has a property. -/
def Memory.Stores (P : IdSource → Flow → Prop) (m : Memory) : Prop :=
  ∀ preview flowId f, m.found preview flowId = .ok (some f) → P m.ids f

/-- Every flow of the stack and of the stores has a property, and the ids to come are new. -/
structure World.Upholds (P : IdSource → Flow → Prop) (w : World) : Prop where
  active : w.session.frames ≠ []
  fresh : w.memory.ids.NeverRepeats
  stored : w.memory.Stores P
  frames : ∀ f ∈ w.session.frames, P w.memory.ids f.flow

variable {P : IdSource → Flow → Prop} {ids : IdSource} {current top parent : Frame}
  {beneath : List Frame} {config : Config} {w w' : World} {m m' : Memory}

namespace Flow.Kept

theorem pause (kept : Flow.Kept P) (fresh : ids.NeverRepeats) (h : P ids current.flow) (b : Block) :
    P (current.pause b ids).ids (current.pause b ids).caller.flow := by
  unfold Frame.pause
  split
  · rename_i t target
    exact kept.withEdge fresh (Flow.resumeTarget?_group target) h
  · exact h

/-- Another frame for the active flow, and the caller that it leaves waiting. -/
theorem pushAgain (kept : Flow.Kept P) (fresh : ids.NeverRepeats) (h : P ids current.flow)
    (b : Block) {groupId : String} (held : (current.flow.group? groupId).isSome) :
    P (current.pushAgain b groupId ids).ids (current.pushAgain b groupId ids).top.flow ∧
      P (current.pushAgain b groupId ids).ids (current.pushAgain b groupId ids).caller.flow := by
  have onward := current.onward_pause b ids
  refine ⟨kept.withEdge (fresh.onward onward) held (kept.onward onward h), ?_⟩
  exact kept.onward (IdSource.onward_next _) (kept.pause fresh h b)

/-- A frame for another flow, and the caller that it leaves waiting. -/
theorem pushOther (kept : Flow.Kept P) (fresh : ids.NeverRepeats) (h : P ids current.flow)
    (b : Block) (merges : Bool) {linked : Flow} (other : P ids linked) {groupId : String}
    (held : (linked.group? groupId).isSome) (beneath : List Frame) :
    P (current.pushOther beneath b merges linked groupId ids).ids
        (current.pushOther beneath b merges linked groupId ids).top.flow ∧
      P (current.pushOther beneath b merges linked groupId ids).ids
        (current.pushOther beneath b merges linked groupId ids).caller.flow := by
  have result := current.onward_resultFor merges (current.pause b ids).ids
  have onward := (current.onward_pause b ids).trans result
  have filled := kept.withVariables (fill linked.vars (current :: beneath))
    (kept.onward onward other)
  refine ⟨kept.withEdge (fresh.onward onward) held filled, ?_⟩
  exact kept.onward (result.trans (IdSource.onward_next _)) (kept.pause fresh h b)

theorem resumed (kept : Flow.Kept P) (h : P ids parent.flow) (top : Frame) :
    P ids (parent.resumed top).flow := by
  unfold Frame.resumed
  split
  · exact kept.withVariables _ h
  · exact h

/-- A return leaves the property to all frames that it leaves. -/
theorem unwind (kept : Flow.Kept P) (h : ∀ f ∈ top :: beneath, P ids f.flow)
    (edgeId : Option String) : ∀ f ∈ (unwind top beneath edgeId).frames, P ids f.flow := by
  refine unwind_frames (P := fun fs => ∀ f ∈ fs, P ids f.flow) ?_ beneath top edgeId h
  intro top parent beneath h f hf
  rcases List.mem_cons.mp hf with rfl | hf
  · exact kept.resumed (h parent (by simp)) top
  · exact h f (List.mem_cons_of_mem _ (List.mem_cons_of_mem _ hf))

end Flow.Kept

theorem Memory.Stores.onward (kept : Flow.Kept P) (h : m.Stores P) (ids : m.ids.Onward m'.ids)
    (drafts : m'.drafts = m.drafts) (published : m'.published = m.published) : m'.Stores P := by
  intro preview flowId f found
  rw [Memory.found_congr drafts published] at found
  exact kept.onward ids (h preview flowId f found)

namespace World.Upholds

variable {extra : Entries}

/-- The stack may gain frames with the property while ids are drawn. -/
theorem step (kept : Flow.Kept P) (h : w.Upholds P) (ids : w.memory.ids.Onward w'.memory.ids)
    (drafts : w'.memory.drafts = w.memory.drafts)
    (published : w'.memory.published = w.memory.published) (active : w'.session.frames ≠ [])
    (frames : ∀ f ∈ w'.session.frames, f ∈ w.session.frames ∨ P w'.memory.ids f.flow) :
    w'.Upholds P where
  active := active
  fresh := h.fresh.onward ids
  stored := h.stored.onward kept ids drafts published
  frames f hf := by
    rcases frames f hf with old | new
    · exact kept.onward ids (h.frames f old)
    · exact new

/-- The active frame may change in what the property does not speak of. -/
theorem head (kept : Flow.Kept P) (h : World.Upholds P ⟨⟨current :: beneath, extra⟩, m⟩)
    (same : P m.ids top.flow) : World.Upholds P ⟨⟨top :: beneath, extra⟩, m⟩ := by
  refine h.step kept (.refl _) rfl rfl (by simp) fun f hf => ?_
  rcases List.mem_cons.mp hf with rfl | hf
  · exact .inr same
  · exact .inl (List.mem_cons_of_mem _ hf)

/-- A frame may be pushed upon a waiting caller. -/
theorem push (kept : Flow.Kept P) (h : World.Upholds P ⟨⟨current :: beneath, extra⟩, m⟩)
    {p : Push} (pushed : P p.ids p.top.flow ∧ P p.ids p.caller.flow) (ids : m.ids.Onward p.ids)
    (drafts : m'.drafts = m.drafts) (published : m'.published = m.published) :
    World.Upholds P ⟨⟨p.top :: p.caller :: beneath, extra⟩, m'.withIds p.ids⟩ := by
  refine h.step kept ids drafts published (by simp) fun f hf => ?_
  rcases List.mem_cons.mp hf with rfl | hf
  · exact .inr pushed.1
  · rcases List.mem_cons.mp hf with rfl | hf
    · exact .inr pushed.2
    · exact .inl (List.mem_cons_of_mem _ hf)

/-- A move keeps the property, if what is stored has it. -/
theorem move (kept : Flow.Kept P) (h : w.Upholds P) (config : Config) (mv : Move)
    (stock : ∀ drafts published, mv = .restock drafts published →
      Memory.Stores P { w.memory with drafts := drafts, published := published }) :
    (w.move config mv).Upholds P := by
  obtain ⟨⟨frames, extra⟩, m⟩ := w
  obtain ⟨current, beneath, rfl⟩ := List.exists_cons_of_ne_nil h.active
  have own : P m.ids current.flow := h.frames current List.mem_cons_self
  have done := turn config current beneath extra m mv
  generalize World.move config _ mv = w' at done ⊢
  cases done with
  | idle => exact h.step kept (.refl _) rfl rfl (by simp) fun f hf => .inl hf
  | again b options groupId p _ held pushed =>
    subst pushed
    exact h.push kept (kept.pushAgain h.fresh own b (Flow.existing_group held))
      (current.onward_pushAgain b groupId m.ids) rfl rfl
  | other b options flowId linked groupId p _ _ found held pushed =>
    subst pushed
    have onward := current.onward_pushOther beneath b
      (current.flow.mergesLinked options.mergesResults config.mergesByDefault) linked groupId m.ids
    exact h.push kept (kept.pushOther h.fresh own b _ (h.stored _ _ _ found)
      (Flow.existing_group held) beneath) onward (Memory.opened_drafts _ _)
      (Memory.opened_published _ _)
  | returned edgeId u unwound =>
    subst unwound
    exact h.step kept (.refl _) rfl rfl (unwind_frames_ne_nil beneath current edgeId)
      fun f hf => .inr (kept.unwind h.frames edgeId f hf)
  | stuck => exact h.step kept (.refl _) rfl rfl (by simp) fun f hf => .inl hf
  | answered a => exact h.head kept own
  | edited vars => exact h.head kept (kept.withVariables vars own)
  | restocked drafts published => exact ⟨h.active, h.fresh, stock _ _ rfl, h.frames⟩

end World.Upholds

namespace Sample

/-- What holds of the questions, under whatever id they are found, holds of all that is stored. -/
theorem memory_stores
    (h : ∀ flowId, P Sample.ids ⟨flowId, none, [⟨"q", "", []⟩], [], [], [], .empty, none⟩) :
    memory.Stores P := by
  intro preview flowId f found
  rcases memory_found preview flowId with absent | present
  · cases absent.symm.trans found
  · cases present.symm.trans found
    exact h flowId

end Sample

end Dialogue
