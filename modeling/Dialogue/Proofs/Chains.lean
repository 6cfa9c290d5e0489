import Mathlib.Data.List.Infix
import Dialogue.Proofs.Subroutine
import Dialogue.Proofs.Threads

/-!
# Chains of merging frames

Whether a frame merges is decided by its link and the version of the flow, and the result that it
writes to by the ids drawn; yet the two never drift apart. A merging frame writes to the result of
the frame beneath and goes on from its answers, in previews too (`Chained`). Hence in a live session
the frames that carry one result id are a chain of merging frames upon one that does not merge
(`results_mark_chains`).
-/

namespace Dialogue

/-- The stack of a session, live or a preview, that was started with a frame. -/
structure Chained (root : Frame) (frames : List Frame) : Prop where
  rooted : Rooted root frames
  mode : ∀ f ∈ frames, f.isPreview = root.isPreview
  joined : frames.IsChain Frame.Joined

/-- A frame for another flow belongs to a preview if its caller does. -/
theorem Frame.pushOther_isPreview (current : Frame) (beneath : List Frame) (b : Block)
    (merges : Bool) (linked : Flow) (groupId : String) (ids : IdSource) :
    (current.pushOther beneath b merges linked groupId ids).top.isPreview = current.isPreview := by
  simp only [isPreview, pushOther, Pause.push, withEdge, resultFor]
  cases current.resultId with
  | none => rfl
  | some id => cases merges <;> rfl

namespace Chained

variable {root f g top current parent : Frame} {beneath : List Frame} {w : World}

theorem start (flow : Flow) (resultId : Option String) :
    Chained (.root flow resultId) [.root flow resultId] :=
  ⟨⟨_, rfl, .refl _⟩, by simp, .singleton _⟩

/-- The first frame may gain answers, and keeps its result. -/
theorem head (h : Chained root (f :: beneath)) (stays : f.Persists g)
    (answers : f.answers <+: g.answers) : Chained root (g :: beneath) where
  rooted := h.rooted.head stays
  mode k hk := by
    rcases List.mem_cons.mp hk with rfl | hk
    · rw [← h.mode f List.mem_cons_self]
      exact congrArg Option.isNone stays.resultId
    · exact h.mode k (List.mem_cons_of_mem _ hk)
  joined := joined_head h.joined stays.resultId stays.merges answers

/-- A frame may be pushed upon a waiting caller if it is joined to it. -/
theorem push (h : Chained root (current :: beneath)) (b : Block) (ids : IdSource)
    (mode : top.isPreview = current.isPreview) (joined : top.Joined (current.pause b ids).caller) :
    Chained root (top :: (current.pause b ids).caller :: beneath) := by
  have waiting := h.head (current.persists_pause b ids) (by simp)
  refine ⟨waiting.rooted.push top, fun k hk => ?_,
    List.isChain_cons_cons.mpr ⟨joined, waiting.joined⟩⟩
  rcases List.mem_cons.mp hk with rfl | hk
  · rw [mode]
    exact h.mode current List.mem_cons_self
  · exact waiting.mode k hk

theorem pop (h : Chained root (top :: parent :: beneath)) :
    Chained root (parent.resumed top :: beneath) := by
  obtain ⟨joined, rest⟩ := List.isChain_cons_cons.mp h.joined
  have left : Chained root (parent :: beneath) := by
    refine ⟨?_, fun k hk => h.mode k (List.mem_cons_of_mem _ hk), rest⟩
    have rooted := h.rooted
    unfold Rooted at rooted
    rwa [List.getLast?_cons_cons] at rooted
  exact left.head (parent.persists_resumed top) joined.resumed

/-- A move keeps the chains. -/
theorem move (h : Chained root w.session.frames) (config : Config) (mv : Move) :
    Chained root (w.move config mv).session.frames := by
  obtain ⟨⟨frames, extra⟩, m⟩ := w
  obtain ⟨current, beneath, rfl⟩ := h.rooted.exists_cons
  have done := turn config current beneath extra m mv
  generalize World.move config _ mv = w' at done ⊢
  cases done with
  | idle => exact h
  | again b options groupId p _ _ pushed =>
    subst pushed
    refine h.push b m.ids rfl fun _ => ⟨?_, ?_⟩
    · rw [Frame.pushAgain_resultId, Frame.pause_resultId]
    · rw [Frame.pushAgain_answers, Frame.pause_answers]
  | other b options flowId linked groupId p _ _ _ _ pushed =>
    generalize current.flow.mergesLinked _ _ = merges at pushed
    subst pushed
    refine h.push b m.ids (current.pushOther_isPreview ..) fun hm => ?_
    obtain rfl : merges = true := hm
    refine ⟨?_, ?_⟩
    · rw [Frame.pushOther_joins, Frame.pause_resultId]
    · rw [Frame.pushOther_answers, Frame.pause_answers, if_pos rfl]
  | returned edgeId u unwound =>
    subst unwound
    exact unwind_frames (fun _ _ _ => pop) beneath current edgeId h
  | stuck => exact h
  | answered a => exact h.head ⟨rfl, rfl, rfl, rfl, rfl⟩ (List.prefix_append ..)
  | edited vars => exact h.head ⟨rfl, rfl, rfl, rfl, rfl⟩ (List.prefix_refl _)
  | restocked => exact h

/-- The deepest frame does not merge. -/
theorem deepest {flow : Flow} {resultId : Option String} {frames : List Frame}
    (h : Chained (.root flow resultId) frames) {l : Frame} (last : frames.getLast? = some l) :
    l.merges = false := by
  obtain ⟨l', last', persists⟩ := h.rooted
  obtain rfl : l' = l := by simpa [last'] using last
  exact persists.merges

end Chained

theorem World.chained_play (config : Config) (flow : Flow) (resultId : Option String) (m : Memory)
    (moves : List Move) : Chained (.root flow resultId)
      ((World.start flow resultId m).play config moves).session.frames := by
  refine World.play_induct (P := fun _ w => Chained (.root flow resultId) w.session.frames) config _
    ?_ ?_ moves
  · exact .start flow resultId
  · intro moves mv h
    exact h.move config mv

/-- The frames that carry a result: a chain of merging frames upon one that does not merge. -/
structure Carriers (r : String) (frames above carriers beneath : List Frame) : Prop where
  split : frames = above ++ carriers ++ beneath
  others : ∀ f ∈ above ++ beneath, f.resultId ≠ some r
  carry : ∀ f ∈ carriers, f.resultId = some r
  merge : ∀ f ∈ carriers.dropLast, f.merges = true
  deepest : ∀ f, carriers.getLast? = some f → f.merges = false

namespace Carriers

variable {r : String} {f k : Frame} {rest above carriers beneath : List Frame}

/-- A frame that does not merge is the deepest of its carriers. -/
theorem single (carries : f.resultId = some r) (fork : f.merges = false)
    (others : ∀ k ∈ rest, k.resultId ≠ some r) : Carriers r (f :: rest) [] [f] rest where
  split := rfl
  others := others
  carry := by simpa using carries
  merge := by simp
  deepest := by simpa using fork

/-- A frame that carries another result stands above. -/
theorem skip (h : Carriers r rest above carriers beneath) (other : f.resultId ≠ some r) :
    Carriers r (f :: rest) (f :: above) carriers beneath where
  split := congrArg (f :: ·) h.split
  others g hg := by
    rcases List.mem_cons.mp hg with rfl | hg
    · exact other
    · exact h.others g hg
  carry := h.carry
  merge := h.merge
  deepest := h.deepest

/-- If the first frame carries the result, the chain begins with it. -/
theorem front (h : Carriers r (k :: rest) above carriers beneath) (carries : k.resultId = some r) :
    above = [] ∧ ∃ more, carriers = k :: more := by
  have elsewhere : k ∉ above ++ beneath := fun hk => h.others k hk carries
  have split := h.split
  cases above with
  | cons a above =>
    obtain ⟨rfl, -⟩ := List.cons.inj split
    exact absurd List.mem_cons_self elsewhere
  | nil =>
    cases carriers with
    | cons c carriers =>
      obtain ⟨rfl, -⟩ := List.cons.inj split
      exact ⟨rfl, carriers, rfl⟩
    | nil =>
      obtain rfl : k :: rest = beneath := split
      exact absurd List.mem_cons_self elsewhere

/-- A merging frame lengthens the chain. -/
theorem extend (h : Carriers r (k :: rest) [] (k :: carriers) beneath)
    (carries : f.resultId = some r) (merges : f.merges = true) :
    Carriers r (f :: k :: rest) [] (f :: k :: carriers) beneath where
  split := congrArg (f :: ·) h.split
  others := h.others
  carry g hg := by
    rcases List.mem_cons.mp hg with rfl | hg
    · exact carries
    · exact h.carry g hg
  merge g hg := by
    rw [List.dropLast_cons_cons] at hg
    rcases List.mem_cons.mp hg with rfl | hg
    · exact merges
    · exact h.merge g hg
  deepest g hg := by
    rw [List.getLast?_cons_cons] at hg
    exact h.deepest g hg

end Carriers

/-- Frames that are joined and apart carry each result in one chain. -/
theorem exists_carriers (r : String) {frames : List Frame} (joined : frames.IsChain Frame.Joined)
    (apart : frames.Pairwise Frame.Apart)
    (root : ∀ l, frames.getLast? = some l → l.merges = false) :
    ∃ above carriers beneath, Carriers r frames above carriers beneath := by
  induction frames with
  | nil => exact ⟨[], [], [], rfl, by simp, by simp, by simp, by simp⟩
  | cons f rest ih =>
    obtain ⟨below, apart⟩ := List.pairwise_cons.mp apart
    by_cases carries : f.resultId = some r
    · cases merges : f.merges with
      | false =>
        exact ⟨[], [f], rest, .single carries merges fun k hk same =>
          below k hk merges (carries.trans same.symm)⟩
      | true =>
        cases rest with
        | nil => simp [root f rfl] at merges
        | cons k rest =>
          obtain ⟨join, chain⟩ := List.isChain_cons_cons.mp joined
          obtain ⟨above, carriers, beneath, found⟩ :=
            ih chain apart fun l last => root l (by rwa [List.getLast?_cons_cons])
          obtain ⟨rfl, more, rfl⟩ := found.front ((join merges).1 ▸ carries)
          exact ⟨[], _, beneath, found.extend carries merges⟩
    · have root' : ∀ l, rest.getLast? = some l → l.merges = false := by
        intro l last
        cases rest with
        | nil => simp at last
        | cons k rest => exact root l (by rwa [List.getLast?_cons_cons])
      obtain ⟨above, carriers, beneath, found⟩ := ih (List.isChain_cons.mp joined).2 apart root'
      exact ⟨f :: above, carriers, beneath, found.skip carries⟩

/-- Result ids mark exactly the chains of merging frames. In every state that a session is brought
to, a merging frame writes to the result of the frame beneath, and its answers go on from there. If
the session is live, a frame that does not merge writes to a result that no frame beneath writes to;
hence the frames that carry a result are consecutive, and all of them but the deepest merge. -/
theorem results_mark_chains (config : Config) (flow : Flow) {r₀ : Option String} {m : Memory}
    (fresh : m.ids.NeverRepeats) (spent : ∀ r, r₀ = some r → m.ids.Spent r) (moves : List Move)
    {s : Session} (reached : ((World.start flow r₀ m).play config moves).session = s) :
    s.isPreview = r₀.isNone ∧ s.frames.IsChain Frame.Joined ∧
      (s.isPreview = false → s.frames.Pairwise Frame.Apart ∧
        ∀ r, ∃ above carriers beneath, Carriers r s.frames above carriers beneath) := by
  have chained : Chained (.root flow r₀) s.frames :=
    reached ▸ World.chained_play config flow r₀ m moves
  have mode : s.isPreview = r₀.isNone := by
    obtain ⟨frames, extra⟩ := s
    obtain ⟨current, beneath, rfl⟩ := chained.rooted.exists_cons
    exact chained.mode current List.mem_cons_self
  refine ⟨mode, chained.joined, fun live => ?_⟩
  cases r₀ with
  | none => simp [mode] at live
  | some r₀ =>
    have apart : s.frames.Pairwise Frame.Apart :=
      reached ▸ (World.live_play config flow fresh (spent r₀ rfl) moves).threaded.apart
    exact ⟨apart, fun r => exists_carriers r chained.joined apart fun l => chained.deepest⟩

namespace Sample

/-- The flow is entered once more, answers and joins the survey, which is answered, and makes a
fork. -/
def branching : List Move :=
  [.execute loop, .answer ⟨"name", "Ada", none⟩, .execute join, .answer ⟨"age", "36", none⟩,
    .execute (link "aside" "audit" "q" false)]

end Sample

/-- Above the root two frames merge, and a fork stands upon them: the result of the root is carried
by three frames. -/
theorem results_mark_chains_sample :
    ∃ s, ((World.start Sample.flow (some "r") Sample.memory).play .default Sample.branching).session
        = s ∧ s.isPreview = false ∧ s.frames.map (·.merges) = [false, true, true, false] ∧
      s.frames.Pairwise Frame.Apart ∧
      ∃ above carriers beneath, Carriers "r" s.frames above carriers beneath := by
  have spent : ∀ r, some "r" = some r → Sample.memory.ids.Spent r := by
    rintro r ⟨⟩
    exact Sample.spent
  obtain ⟨-, -, live⟩ := results_mark_chains .default Sample.flow (m := Sample.memory)
    Sample.neverRepeats spent Sample.branching rfl
  obtain ⟨apart, carriers⟩ := live rfl
  exact ⟨_, rfl, rfl, rfl, apart, carriers "r"⟩

end Dialogue
