import Mathlib.Data.List.Infix
import Dialogue.Proofs.Subroutine

/-!
# Frames beneath the active one

While a session stays deeper than some level, whatever is done to it touches nothing beneath that
level, and of the frame at the level it changes at most the variables, the answers, and edges that
are appended (`Frame.Keeps`). One act works on a single frame and either pushes or pops
(`Reworked`); a whole run is told from there. When the frame at the level is popped at last, the
frame beneath takes over its variables and answers if it merges, and is left as it was if it does
not (`beneath_isolated`).
-/

namespace Dialogue

/-! ### What a frame keeps while it is on the stack -/

/-- What became of a frame on the stack: variables and answers may be others, and further edges may
stand behind its own. -/
structure Frame.Keeps (f g : Frame) : Prop extends f.Persists g where
  version : g.flow.version = f.flow.version
  events : g.flow.events = f.flow.events
  settings : g.flow.settings = f.flow.settings
  systemMessages : g.flow.systemMessages = f.flow.systemMessages
  edges : f.flow.edges <+: g.flow.edges

namespace Frame

variable {f g h : Frame}

theorem Keeps.refl (f : Frame) : f.Keeps f :=
  ⟨.refl f, rfl, rfl, rfl, rfl, List.prefix_refl _⟩

theorem Keeps.trans (hfg : f.Keeps g) (hgh : g.Keeps h) : f.Keeps h :=
  ⟨hfg.toPersists.trans hgh.toPersists, hgh.version.trans hfg.version,
    hgh.events.trans hfg.events, hgh.settings.trans hfg.settings,
    hgh.systemMessages.trans hfg.systemMessages, hfg.edges.trans hgh.edges⟩

/-- A frame that differs in variables and answers only. -/
theorem Keeps.of_shell (same : g.shell = f.shell) : f.Keeps g where
  resultId := congrArg (·.resultId) same
  returnEdgeId := congrArg (·.returnEdgeId) same
  merges := congrArg (·.merges) same
  flowId := congrArg (·.flow.id) same
  groups := congrArg (·.flow.groups) same
  version := congrArg (·.flow.version) same
  events := congrArg (·.flow.events) same
  settings := congrArg (·.flow.settings) same
  systemMessages := congrArg (·.flow.systemMessages) same
  edges := by
    have edges : g.flow.edges = f.flow.edges := congrArg (·.flow.edges) same
    rw [edges]

theorem keeps_withEdge (f : Frame) (e : Edge) : f.Keeps (f.withEdge e) :=
  ⟨⟨rfl, rfl, rfl, rfl, rfl⟩, rfl, rfl, rfl, rfl, List.prefix_append ..⟩

/-- A caller that is left waiting gets an edge to resume through, and nothing else. -/
theorem keeps_pause (f : Frame) (b : Block) (ids : IdSource) : f.Keeps (f.pause b ids).caller := by
  rcases f.pause_caller b ids with same | ⟨e, same⟩
  · rw [same]
    exact .refl f
  · rw [same]
    exact f.keeps_withEdge e

end Frame

/-! ### What an act does to the stack -/

/-- A stack came of another by work on a single frame: the frames beneath are the same, and above it
some were pushed or some were popped. -/
def Reworked (before after : List Frame) : Prop :=
  ∃ above f above' g beneath, before = above ++ f :: beneath ∧ after = above' ++ g :: beneath ∧
    f.Keeps g ∧ (above = [] ∨ above' = [])

section

variable {f g top : Frame} {beneath : List Frame}

theorem Reworked.of_keeps (keeps : f.Keeps g) : Reworked (f :: beneath) (g :: beneath) :=
  ⟨[], f, [], g, beneath, rfl, rfl, keeps, .inl rfl⟩

theorem Reworked.push (keeps : f.Keeps g) : Reworked (f :: beneath) (top :: g :: beneath) :=
  ⟨[], f, [top], g, beneath, rfl, rfl, keeps, .inl rfl⟩

/-- A return changes one frame at most of those that it leaves: the one that becomes active. -/
theorem unwind_left (beneath : List Frame) (top : Frame) (edgeId : Option String) :
    ∃ above f g left, top :: beneath = above ++ f :: left ∧
      (unwind top beneath edgeId).frames = g :: left ∧ g.shell = f.shell := by
  obtain ⟨above, f, left, split, frames⟩ := unwind_restored beneath top edgeId
  exact ⟨above, f, _, left, split, frames, f.shell_restored _⟩

theorem reworked_unwind (beneath : List Frame) (top : Frame) (edgeId : Option String) :
    Reworked (top :: beneath) (unwind top beneath edgeId).frames := by
  obtain ⟨above, f, g, left, split, frames, same⟩ := unwind_left beneath top edgeId
  exact ⟨above, f, [], g, left, split, frames, .of_shell same, .inr rfl⟩

/-- An act works on a single frame, and leaves alone what the engine does not look at. -/
theorem World.reworked_act (config : Config) {w : World} (active : w.session.frames ≠ [])
    (a : Act) : Reworked w.session.frames (w.act config a).session.frames ∧
      (w.act config a).session.extra = w.session.extra := by
  obtain ⟨⟨frames, extra⟩, m⟩ := w
  obtain ⟨current, beneath, rfl⟩ := List.exists_cons_of_ne_nil active
  cases a with
  | setAnswers answers => exact ⟨.of_keeps (.of_shell rfl), rfl⟩
  | move mv =>
    have done := turn config current beneath extra m mv
    simp only [act]
    generalize World.move config _ mv = w' at done ⊢
    cases done with
    | idle => exact ⟨.of_keeps (.refl _), rfl⟩
    | again b options groupId p _ _ pushed =>
      subst pushed
      exact ⟨.push (current.keeps_pause b m.ids), rfl⟩
    | other b options flowId linked groupId p _ _ _ _ pushed =>
      subst pushed
      exact ⟨.push (current.keeps_pause b m.ids), rfl⟩
    | returned edgeId u unwound =>
      subst unwound
      exact ⟨reworked_unwind beneath current edgeId, rfl⟩
    | stuck => exact ⟨.of_keeps (.refl _), rfl⟩
    | answered => exact ⟨.of_keeps (.of_shell rfl), rfl⟩
    | edited => exact ⟨.of_keeps (.of_shell rfl), rfl⟩
    | restocked => exact ⟨.of_keeps (.refl _), rfl⟩

/-- If the stack stays deeper than a frame, the frame is kept, above the same frames. -/
theorem Reworked.level {before after : List Frame} (h : Reworked before after)
    {above : List Frame} (split : before = above ++ f :: beneath)
    (deep : beneath.length < after.length) :
    ∃ above' g, after = above' ++ g :: beneath ∧ f.Keeps g := by
  obtain ⟨above₁, f₁, above₂, g, under, split₁, rfl, keeps, oneWay⟩ := h
  rw [split₁] at split
  rcases List.append_eq_append_iff.mp split with ⟨c, hc, rest⟩ | ⟨c, hc, rest⟩
  · -- the level is that of the frame worked on, or beneath it
    cases c with
    | nil =>
      obtain ⟨rfl, rfl⟩ := List.cons.inj rest
      exact ⟨above₂, g, rfl, keeps⟩
    | cons a c =>
      rw [List.cons_append] at rest
      obtain ⟨-, rfl⟩ := List.cons.inj rest
      exact ⟨above₂ ++ g :: c, f, by simp, .refl f⟩
  · cases c with
    | nil =>
      obtain ⟨rfl, rfl⟩ := List.cons.inj rest
      exact ⟨above₂, g, rfl, keeps⟩
    | cons a c =>
      -- the level is above the frame worked on, so its own frame is popped
      rw [List.cons_append] at rest
      obtain ⟨-, rfl⟩ := List.cons.inj rest
      rcases oneWay with none | none
      · rw [none] at hc
        simp at hc
      · rw [none] at deep
        simp only [List.nil_append, List.length_cons, List.length_append] at deep
        omega

/-- A session that stays deeper than a frame keeps it, above the same frames. -/
theorem World.enact_level (config : Config) {w : World} {above : List Frame}
    (split : w.session.frames = above ++ f :: beneath) (acts : List Act)
    (deep : ∀ before, before <+: acts → beneath.length < (w.enact config before).session.depth) :
    ∃ above' g, (w.enact config acts).session = ⟨above' ++ g :: beneath, w.session.extra⟩ ∧
      f.Keeps g := by
  induction acts using List.reverseRecOn with
  | nil =>
    refine ⟨above, f, ?_, .refl f⟩
    rw [World.enact_nil, ← split]
  | append_singleton acts a ih =>
    obtain ⟨above₁, g₁, there, keeps₁⟩ :=
      ih fun before h => deep before (h.trans (List.prefix_append ..))
    have reached := deep (acts ++ [a]) (List.prefix_refl _)
    rw [World.enact_concat] at reached ⊢
    have active : (w.enact config acts).session.frames ≠ [] := by simp [there]
    obtain ⟨reworked, extra⟩ := World.reworked_act config active a
    obtain ⟨above₂, g₂, after, keeps₂⟩ :=
      reworked.level (congrArg Session.frames there) reached
    refine ⟨above₂, g₂, ?_, keeps₁.trans keeps₂⟩
    rw [← after, ← congrArg Session.extra there, ← extra]

end

/-! ### Popping a frame -/

section

variable {caller : Frame} {rest : List Frame}

/-- A return that leaves no more than the frames beneath a given one pops that frame last of those
above, each as it is restored then, and goes on by its return edge. -/
theorem unwind_past : ∀ (above : List Frame) (top : Frame) (edgeId : Option String),
    (unwind top (above ++ caller :: rest) edgeId).frames.length ≤ rest.length + 1 →
    ∃ gone last, restoredEach (top :: above).reverse = last :: gone.reverse ∧
      unwind top (above ++ caller :: rest) edgeId =
        { unwind (caller.resumed last) rest last.returnEdgeId with
          popped := gone ++ [last] ++
            (unwind (caller.resumed last) rest last.returnEdgeId).popped }
  | [], top, edgeId, few => by
    cases h : edgeId.bind top.flow.edge? with
    | some edge =>
      rw [List.nil_append, unwind_of_edge h] at few
      simp only [List.length_cons] at few
      omega
    | none => exact ⟨[], top, rfl, unwind_of_no_edge h⟩
  | parent :: above, top, edgeId, few => by
    rw [List.cons_append] at few ⊢
    cases h : edgeId.bind top.flow.edge? with
    | some edge =>
      rw [unwind_of_edge h] at few
      simp only [List.length_cons, List.length_append] at few
      omega
    | none =>
      rw [unwind_of_no_edge h] at few ⊢
      obtain ⟨gone, last, each, on⟩ :=
        unwind_past above (parent.resumed top) top.returnEdgeId few
      refine ⟨top :: gone, last, ?_, by rw [on]; rfl⟩
      rw [restoredEach_pop, each, List.reverse_cons, List.cons_append]

end

/-- Some frame stands at each level of a stack. -/
theorem exists_at_level {frames : List Frame} {d : ℕ} (h : d < frames.length) :
    ∃ above f beneath, frames = above ++ f :: beneath ∧ beneath.length = d := by
  induction frames with
  | nil => simp at h
  | cons top frames ih =>
    rw [List.length_cons] at h
    by_cases last : frames.length = d
    · exact ⟨[], top, frames, rfl, last⟩
    · obtain ⟨above, f, beneath, rfl, length⟩ := ih (by omega)
      exact ⟨top :: above, f, beneath, rfl, length⟩

/-- Frames beneath the active one are isolated. While a session stays deeper than `d`, its last `d`
frames stay as they are, and the frame above them changes in no more than variables, answers and
edges appended. When that frame is popped, those above it are popped first, and it is restored by
them, as each of them is by the ones before. It hands variables and answers to the frame beneath if
it merges, and nothing if it does not; from there its return edge is followed, which is the one that
it had at the beginning. -/
theorem beneath_isolated (config : Config) (w : World) (acts : List Act) (d : ℕ)
    (deep : ∀ before, before <+: acts → d < (w.enact config before).session.depth) :
    ∃ above f above' g beneath, beneath.length = d ∧
      w.session.frames = above ++ f :: beneath ∧
      (w.enact config acts).session = ⟨above' ++ g :: beneath, w.session.extra⟩ ∧ f.Keeps g ∧
      ∀ edgeId n m, exec (Memory.host.next (w.enact config acts).session edgeId)
          (w.enact config acts).memory = (.ok n, m) → n.session.depth ≤ d →
        ∃ caller rest gone last, beneath = caller :: rest ∧
          gone = (restoredEach above'.reverse).reverse ∧ last = g.restored above'.reverse ∧
          last.shell = g.shell ∧ (f.merges = false → caller.resumed last = caller) ∧
          (caller.resumed last).shell = caller.shell ∧
          (n.session.depth = d → n.session = ⟨caller.resumed last :: rest, w.session.extra⟩) ∧
          exec (Memory.host.next (w.enact config acts).session edgeId)
              (w.enact config acts).memory =
            exec (do
              Memory.host.closeAll (gone ++ [last])
              Memory.host.next ⟨caller.resumed last :: rest, w.session.extra⟩ f.returnEdgeId)
              (w.enact config acts).memory := by
  have start : d < w.session.frames.length := deep [] List.nil_prefix
  obtain ⟨above, f, beneath, split, rfl⟩ := exists_at_level start
  obtain ⟨above', g, there, keeps⟩ := World.enact_level config split acts deep
  refine ⟨above, f, above', g, beneath, rfl, split, there, keeps, fun edgeId n m ran few => ?_⟩
  generalize (w.enact config acts).memory = m₀ at ran ⊢
  obtain ⟨top, others, front⟩ := List.exists_cons_of_ne_nil (l := above' ++ [g]) (by simp)
  rw [there, List.append_cons, front, List.cons_append] at ran ⊢
  obtain ⟨-, rfl⟩ := next_ok ran
  have left := unwind_frames_ne_nil (others ++ beneath) top edgeId
  cases beneath with
  | nil => exact absurd (List.length_eq_zero_iff.mp (Nat.le_zero.mp few)) left
  | cons caller rest =>
    obtain ⟨gone, last, each, on⟩ := unwind_past others top edgeId few
    rw [← front, List.reverse_append, List.reverse_singleton, List.singleton_append] at each
    obtain ⟨restored, shallow⟩ := List.cons.inj each
    have same : last.shell = g.shell := by rw [← restored, Frame.shell_restored]
    have persists := keeps.toPersists.trans (Frame.Keeps.of_shell same).toPersists
    have past := exec_next_past Memory.host w.session.extra m₀ on
    rw [persists.returnEdgeId] at on past
    refine ⟨caller, rest, gone, last, rfl, by rw [shallow, List.reverse_reverse], restored.symm,
      same, fun fork => ?_, by simp, fun full => ?_, past⟩
    · exact Frame.resumed_of_fork caller (persists.merges.trans fork)
    · rw [on] at full ⊢
      rw [unwind_of_full full]

namespace Sample

/-- The flow has made a fork. -/
def forked : World := (World.start flow (some "r") memory).move .default (.execute fork)

/-- The fork is edited, and links to the survey, which it joins. -/
def editing : List Act :=
  [.setAnswers [⟨"ok", "yes", none⟩], .move (.setVars [⟨"v", "name", some (.string "Ada")⟩]),
    .move (.execute join)]

theorem editing_deep : ∀ before, before <+: editing →
    1 < (forked.enact .default before).session.depth := by
  simp only [editing, List.prefix_cons_iff, List.prefix_nil]
  rintro before (rfl | ⟨_, rfl, rfl | ⟨_, rfl, rfl | ⟨_, rfl, rfl⟩⟩⟩)
  all_goals decide

end Sample

/-- The fork and what joined it are popped by one return, which leaves the flow as it was when it
made the fork. -/
theorem beneath_isolated_sample :
    ∃ n m caller, exec (Memory.host.next (Sample.forked.enact .default Sample.editing).session none)
        (Sample.forked.enact .default Sample.editing).memory = (.ok n, m) ∧
      Sample.forked.session.frames.getLast? = some caller ∧ n.session = ⟨[caller], []⟩ := by
  obtain ⟨above, f, above', g, beneath, length, before, -, -, pops⟩ :=
    beneath_isolated .default Sample.forked Sample.editing 1 Sample.editing_deep
  obtain ⟨n, m, ran, one⟩ : ∃ n m, exec (Memory.host.next
      (Sample.forked.enact .default Sample.editing).session none)
      (Sample.forked.enact .default Sample.editing).memory = (.ok n, m) ∧ n.session.depth = 1 :=
    ⟨_, _, rfl, rfl⟩
  obtain ⟨caller, rest, gone, last, rfl, -, -, -, hands, -, left, -⟩ :=
    pops none n m ran (Nat.le_of_eq one)
  obtain rfl : rest = [] := by simpa using length
  have two : Sample.forked.session.frames.length = 2 := rfl
  have first : Sample.forked.session.frames.head?.map (·.merges) = some false := rfl
  rw [before] at two first
  obtain rfl : above = [] := by simpa using two
  have fork : f.merges = false := by simpa using first
  refine ⟨n, m, caller, ran, by rw [before]; rfl, ?_⟩
  rw [left one, hands fork]
  rfl

end Dialogue
