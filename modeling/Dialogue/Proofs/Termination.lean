import Dialogue.Proofs.Descent
import Dialogue.Proofs.Loop

/-!
# Runs that come to an end

A limit on the depth makes every run of tame flows end, however their links recur. The blocks of a
group lower the potential of the frame that the group was entered in, and leave those beneath alone
(`blocks_settle`); hence the potentials of the stack sink with every group that is visited
(`World.Bounded.round`), and with no more frames than the limit allows they cannot do so forever
(`limited_run_ends`).
-/

namespace Dialogue

/-- The stack has a frame, and no more frames than a limit allows. -/
def Session.Within (limit : ℕ) (s : Session) : Prop := 1 ≤ s.depth ∧ s.depth ≤ limit

/-- The states that an event tells of keep to a limit. -/
def RunEvent.Within (limit : ℕ) : RunEvent → Prop
  | .entered _ depth _ => 1 ≤ depth ∧ depth ≤ limit
  | .reached _ _ => True
  | .answered _ reply => ∀ s, reply.session = some s → s.Within limit

/-- All flows are tame, and the depth keeps to the limit. -/
structure World.Bounded (config : Config) (w : World) : Prop extends w.Upholds Flow.Tame where
  depth : w.session.depth ≤ config.maxDepth

/-- A run from a point ends, and is the same with any greater bound on the number of groups. -/
def Point.Ends (config : Config) (p : Point) : Prop :=
  ∃ n, (p.run config n).1.ending ≠ .interrupted ∧
    ∀ more, p.run config (n + more) = p.run config n

section

variable {config : Config} {current : Frame} {beneath : List Frame} {extra : Entries} {b : Block}
  {reply : Reply} {s : Session} {m m' : Memory}

/-! ### What a block comes to -/

/-- A block answers its own edge and leaves the session as it is, or a frame is pushed upon the
waiting caller, within the limit, and entered. -/
theorem execute_ok (ran : exec (Registry.default.execute Memory.host config
    ⟨current :: beneath, extra⟩ b) m = (.ok reply, m')) :
    (reply.session = none ∧ reply.outgoingEdgeId = b.outgoingEdgeId) ∨
    ∃ top, reply.session = some ⟨top :: (current.pause b m.ids).caller :: beneath, extra⟩ ∧
      top.returnEdgeId = (current.pause b m.ids).returnEdgeId ∧ reply.outgoingEdgeId ≠ none ∧
      (config.maxDepth = 0 ∨ beneath.length + 1 < config.maxDepth) := by
  by_cases link : b.type = Executor.linkType
  · rw [execute_link config _ link] at ran
    have room := room_of_push ran
    have outcome := link_outcome config extra current beneath b m
    rw [ran] at outcome
    cases outcome with
    | refused r calls quiet => exact .inl ⟨rfl, rfl⟩
    | again options groupId wanted held =>
      exact .inr ⟨_, rfl, rfl, Option.some_ne_none _, room (Option.some_ne_none _)⟩
    | other options flowId linked groupId p wanted named found held pushed =>
      subst pushed
      exact .inr ⟨_, rfl, rfl, Option.some_ne_none _, room (Option.some_ne_none _)⟩
  · rw [execute_other config _ link, exec_pure] at ran
    obtain rfl := Except.ok.inj (Prod.mk.inj ran).1
    exact .inl ⟨rfl, rfl⟩

namespace World.Bounded

theorem within {w : World} (h : w.Bounded config) : w.session.Within config.maxDepth :=
  ⟨List.length_pos_iff.mpr h.active, h.depth⟩

/-- What a block answers keeps to the limit. -/
theorem execute (h : World.Bounded config ⟨s, m⟩)
    (ran : exec (Registry.default.execute Memory.host config s b) m = (.ok reply, m')) :
    World.Bounded config ⟨reply.session.getD s, m'⟩ where
  toUpholds := by
    have upholds := h.toUpholds.move Flow.tame_kept config (.execute b) (by simp)
    rwa [World.move_execute ran] at upholds
  depth := by
    have limit : 1 ≤ config.maxDepth := h.within.1.trans h.depth
    obtain ⟨frames, extra⟩ := s
    obtain ⟨current, beneath, rfl⟩ := List.exists_cons_of_ne_nil h.active
    rcases execute_ok ran with ⟨none, -⟩ | ⟨top, pushed, -, -, room⟩
    · rw [none]
      exact h.depth
    · rw [pushed]
      simp only [Option.getD_some, Session.depth, List.length_cons]
      omega

/-- Following an edge keeps to the limit. -/
theorem next {edgeId : Option String} {n : Next} (h : World.Bounded config ⟨s, m⟩)
    (ran : exec (Memory.host.next s edgeId) m = (.ok n, m')) :
    World.Bounded config ⟨n.session, m'⟩ where
  toUpholds := by
    have upholds := h.toUpholds.move Flow.tame_kept config (.next edgeId) (by simp)
    rwa [World.move_next ran] at upholds
  depth := by
    have limit := h.depth
    obtain ⟨frames, extra⟩ := s
    obtain ⟨current, beneath, rfl⟩ := List.exists_cons_of_ne_nil h.active
    obtain ⟨-, rfl⟩ := next_ok ran
    have counted := unwind_length beneath current edgeId
    simp only [Session.depth, List.length_cons] at limit ⊢
    omega

end World.Bounded

/-! ### What the blocks of a group come to -/

/-- Blocks of the active frame come to something that keeps to the limit. If an edge is to be
followed then, the frame has a potential below some bound, and those beneath have theirs. -/
structure Settles (config : Config) (current : Frame) (beneath : List Frame) (bound : ℕ ×ₗ ℕ)
    (r : Pass × Memory) : Prop where
  events : ∀ e ∈ r.1.events, e.Within config.maxDepth
  within : r.1.session.Within config.maxDepth
  bounded : ∀ edgeId, r.1.outcome = .ok edgeId → World.Bounded config ⟨r.1.session, r.2⟩
  sinks : ∀ edgeId, r.1.outcome = .ok edgeId → ∃ above y,
    potentials r.1.session.frames edgeId = above ++ y :: potentials beneath current.returnEdgeId ∧
      y < bound

/-- Whatever edge a block answers, the frame that it belongs to has a lower potential then. -/
theorem execute_sinks (tame : current.flow.Tame m.ids) {g : Group} (held : g ∈ current.flow.groups)
    {before rest : List Block} (place : g.blocks = before ++ b :: rest) {n : ℕ}
    (fewer : rest.length < n) (ran : exec (Registry.default.execute Memory.host config
      ⟨current :: beneath, extra⟩ b) m = (.ok reply, m')) :
    ∃ above y, potentials (reply.session.getD ⟨current :: beneath, extra⟩).frames
        reply.outgoingEdgeId = above ++ y :: potentials beneath current.returnEdgeId ∧
      y < toLex (current.flow.ahead g.id, n + 1) := by
  have inGroup : b ∈ g.blocks := place ▸ List.mem_append_right _ List.mem_cons_self
  rcases execute_ok ran with ⟨none, own⟩ | ⟨top, pushed, back, -⟩
  · rw [none, own]
    exact ⟨[], _, rfl, tame.acyclic.potential_lt held inGroup n⟩
  · have waits := (current.persists_pause b m.ids).returnEdgeId
    rw [pushed, Option.getD_some, potentials, potentials, back, waits]
    exact ⟨[_], _, rfl, tame.pause_potential held place fewer⟩

/-- The blocks from some place to the end of a group settle below the potential of that place. -/
theorem blocks_settle {g : Group} (held : g ∈ current.flow.groups) {n : ℕ} :
    ∀ (blocks : List Block) {m : Memory}, blocks <:+ g.blocks → blocks.length ≤ n →
      World.Bounded config ⟨⟨current :: beneath, extra⟩, m⟩ →
      Settles config current beneath (toLex (current.flow.ahead g.id, n + 1))
        (Session.blocks config ⟨current :: beneath, extra⟩ blocks m)
  | [], m, _, _, h => by
    rw [Session.blocks_nil]
    refine ⟨by simp, h.within, fun _ _ => h, fun edgeId ends => ?_⟩
    obtain rfl : none = edgeId := Except.ok.inj ends
    exact ⟨[], current.flow.potential none, rfl, Flow.zero_lt_potential _ n⟩
  | b :: rest, m, behind, short, h => by
    obtain ⟨before, place⟩ := behind
    rw [List.length_cons] at short
    rw [Session.blocks_cons]
    rcases ran : exec (Registry.default.execute Memory.host config ⟨current :: beneath, extra⟩ b) m
      with ⟨f | reply, m'⟩
    · refine ⟨by simp [RunEvent.Within], h.within, fun _ ends => ?_, fun _ ends => ?_⟩
      · cases ends
      · cases ends
    · have h' := h.execute ran
      have tame : current.flow.Tame m.ids := h.frames current List.mem_cons_self
      have sinks := execute_sinks tame held place.symm short ran
      have answered : RunEvent.Within config.maxDepth (.answered b reply) := by
        intro s pushed
        rw [pushed] at h'
        exact h'.within
      cases outgoing : reply.outgoingEdgeId with
      | some edgeId =>
        rw [outgoing] at sinks
        simp only [outgoing]
        refine ⟨?_, h'.within, fun _ _ => h', fun id ends => ?_⟩
        · rintro e (_ | ⟨_, _ | ⟨_, ⟨⟩⟩⟩)
          · trivial
          · exact answered
        · obtain rfl : some edgeId = id := Except.ok.inj ends
          exact sinks
      | none =>
        -- a block that answers no edge has pushed nothing
        rcases execute_ok ran with ⟨none, -⟩ | ⟨top, -, -, entered, -⟩
        · simp only [outgoing]
          rw [none] at h' ⊢
          have settled := blocks_settle held rest
            (List.IsSuffix.trans ⟨[b], rfl⟩ ⟨before, place⟩) (Nat.le_of_succ_le short) h'
          refine ⟨?_, settled.within, settled.bounded, settled.sinks⟩
          rintro e (_ | ⟨_, _ | ⟨_, he⟩⟩)
          · trivial
          · exact answered
          · exact settled.events e he
        · exact absurd outgoing entered

end

/-! ### What a round comes to -/

section

variable {config : Config} {p q : Point}

/-- A run that does not go on has come to its end. -/
theorem Point.Ends.of_stop {r : Run × Memory} (stops : ∀ n, p.run config (n + 1) = r)
    (ended : r.1.ending ≠ .interrupted) : p.Ends config := by
  refine ⟨1, ?_, fun more => ?_⟩
  · rw [stops 0]
    exact ended
  · rw [Nat.add_comm, stops more, stops 0]

/-- A run that goes on as one that ends comes to its end as well. -/
theorem Point.Ends.of_visit {events : List RunEvent}
    (visits : ∀ n, p.run config (n + 1) =
      ((q.run config n).1.behind events, (q.run config n).2)) (ends : q.Ends config) :
    p.Ends config := by
  obtain ⟨n, ended, same⟩ := ends
  refine ⟨n + 1, ?_, fun more => ?_⟩
  · rw [visits]
    exact ended
  · rw [Nat.add_right_comm, visits, visits, same]

end

namespace World.Bounded

variable {config : Config} {p : Point} {group : Group} {s : Session} {m m' : Memory}
  {pass : Pass}

/-- A group that is visited keeps to the limit. If the run goes on from there, the potentials of the
stack have sunk. -/
theorem round (h : World.Bounded config ⟨p.session, p.memory⟩)
    (next : exec (Memory.host.next p.session p.edgeId) p.memory = (.ok ⟨some group, s⟩, m))
    (blocks : s.blocks config group.blocks m = (pass, m')) :
    (∀ e ∈ .entered group s.depth s.activeFlowId :: pass.events, e.Within config.maxDepth) ∧
      pass.session.Within config.maxDepth ∧
      ∀ edgeId, pass.outcome = .ok edgeId → World.Bounded config ⟨pass.session, m'⟩ ∧
        Sinks (potentials p.session.frames p.edgeId) (potentials pass.session.frames edgeId) := by
  have entered := h.next next
  have within : RunEvent.Within config.maxDepth (.entered group s.depth s.activeFlowId) :=
    entered.within
  obtain ⟨⟨frames, extra⟩, edgeId₀, m₀⟩ := p
  obtain ⟨top, under, rfl⟩ := List.exists_cons_of_ne_nil h.active
  obtain ⟨-, reached⟩ := next_ok next
  obtain ⟨leads, rfl⟩ := Next.mk.inj reached
  obtain ⟨current, beneath, edgeId', left, target, above, drops⟩ :=
    unwind_potentials under top edgeId₀ leads.symm
  obtain ⟨e, -, destination⟩ := Option.bind_eq_some_iff.mp target
  obtain ⟨whole, held, -, same, place⟩ := Flow.destination_spec destination
  rw [left] at entered blocks
  have settled := blocks_settle held group.blocks place le_rfl entered
  rw [blocks, ← same, ← Flow.potential_of_destination target] at settled
  refine ⟨List.forall_mem_cons.mpr ⟨within, settled.events⟩, settled.within,
    fun edgeId ends => ⟨settled.bounded edgeId ends, ?_⟩⟩
  obtain ⟨above', y, after, lower⟩ := settled.sinks edgeId ends
  exact ⟨above, _, _, above', y, drops.symm, after, lower⟩

/-- From a bounded state a run comes to an end. -/
theorem ends (h : World.Bounded config ⟨p.session, p.memory⟩) : p.Ends config := by
  have sinking := wellFounded_sinks (α := ℕ ×ₗ ℕ) config.maxDepth
  generalize left : potentials p.session.frames p.edgeId = l
  induction l using sinking.induction generalizing p with
  | _ l ih =>
    subst left
    obtain ⟨run, fate, same⟩ := p.fate config
    cases fate with
    | stuck f m next => exact .of_stop same (by simp)
    | finished s m next => exact .of_stop same (by simp)
    | failed group s m pass m' f next blocks outcome => exact .of_stop same (by simp)
    | visited group s m pass m' edgeId next blocks outcome =>
      obtain ⟨-, -, goesOn⟩ := h.round next blocks
      obtain ⟨bounded, sinks⟩ := goesOn edgeId outcome
      have low : (potentials pass.session.frames edgeId).length ≤ config.maxDepth := by
        rw [length_potentials]
        exact bounded.depth
      exact .of_visit same (ih _ ⟨sinks, low⟩ (p := ⟨pass.session, edgeId, m'⟩) bounded rfl)

/-- A run from a bounded state keeps to the limit, however long it is. -/
theorem run_within (n : ℕ) (h : World.Bounded config ⟨p.session, p.memory⟩) :
    (∀ e ∈ (p.run config n).1.events, e.Within config.maxDepth) ∧
      (p.run config n).1.session.Within config.maxDepth := by
  induction n generalizing p with
  | zero =>
    rw [Point.run_zero]
    exact ⟨by simp, h.within⟩
  | succ n ih =>
    obtain ⟨run, fate, same⟩ := p.fate config
    rw [same]
    cases fate with
    | stuck f m next => exact ⟨by simp, h.within⟩
    | finished s m next => exact ⟨by simp, (h.next next).within⟩
    | failed group s m pass m' f next blocks outcome =>
      obtain ⟨events, within, -⟩ := h.round next blocks
      exact ⟨events, within⟩
    | visited group s m pass m' edgeId next blocks outcome =>
      obtain ⟨events, -, goesOn⟩ := h.round next blocks
      obtain ⟨events', within⟩ := ih (p := ⟨pass.session, edgeId, m'⟩) (goesOn edgeId outcome).1
      refine ⟨fun e he => ?_, within⟩
      rcases List.mem_append.mp he with he | he
      · exact events e he
      · exact events' e he

end World.Bounded

/-- A depth limit makes runs of acyclic flows end. If the root and every stored definition are tame,
then from every start edge a run stops after finitely many groups, finished or aborted, however
their links recur and whatever fails; and the stack has at least one frame and at most as many as
the limit allows in all states of the run. -/
theorem limited_run_ends (config : Config) (limited : 1 ≤ config.maxDepth) {flow : Flow}
    (resultId : Option String) {m : Memory} (fresh : m.ids.NeverRepeats) (root : flow.Tame m.ids)
    (stored : m.Stores Flow.Tame) (edgeId : Option String) {p : Point}
    (start : p = ⟨.start (.root flow resultId), edgeId, m⟩) :
    (∃ n, (p.run config n).1.ending ≠ .interrupted ∧
      ∀ more, p.run config (n + more) = p.run config n) ∧
    ∀ n, (∀ e ∈ (p.run config n).1.events, e.Within config.maxDepth) ∧
      (p.run config n).1.session.Within config.maxDepth := by
  have bounded : World.Bounded config ⟨p.session, p.memory⟩ := by
    subst start
    refine ⟨⟨by simp [Session.start], fresh, stored, fun f hf => ?_⟩, limited⟩
    obtain rfl := List.mem_singleton.mp hf
    exact root
  exact ⟨bounded.ends, fun n => bounded.run_within n⟩

namespace Sample

/-- Enters itself again and goes on to a group that makes a fork. -/
def spiral : Flow :=
  ⟨"f", none, [⟨"g", "", [loop, step]⟩, ⟨"h", "", [fork]⟩],
    [⟨"go", .unset, ⟨"g", none⟩⟩, ⟨"on", .unset, ⟨"h", none⟩⟩], [], [], ⟨none, []⟩, none⟩

/-- Only the first group of the spiral leads to another one. -/
theorem spiral_leads {a b : String} (h : spiral.Leads a b) : a = "g" ∧ b = "h" := by
  obtain ⟨g, held, rfl, k, place, e, found, rfl⟩ := h
  simp only [spiral, List.mem_cons, List.not_mem_nil, or_false] at held
  rcases held with rfl | rfl
  · simp only [List.mem_cons, List.not_mem_nil, or_false] at place
    rcases place with rfl | rfl
    · cases found
    · obtain rfl : (⟨"on", .unset, ⟨"h", none⟩⟩ : Edge) = e := Option.some.inj found
      exact ⟨rfl, rfl⟩
  · obtain rfl := List.mem_singleton.mp place
    cases found

theorem spiral_tame : spiral.Tame ids where
  distinct := ⟨by decide, by decide⟩
  acyclic a back := by
    obtain ⟨b, first, -⟩ := Relation.TransGen.head'_iff.mp back
    obtain ⟨c, -, last⟩ := Relation.TransGen.tail'_iff.mp back
    exact absurd ((spiral_leads first).1.symm.trans (spiral_leads last).2) (by decide)
  unused e he := by
    simp only [spiral, List.mem_cons, List.not_mem_nil, or_false] at he
    rcases he with rfl | rfl
    · exact ids_spent List.mem_cons_self (by decide)
    · exact ids_spent List.mem_cons_self (by decide)
  unnamed g held k place id own := by
    simp only [spiral, List.mem_cons, List.not_mem_nil, or_false] at held
    rcases held with rfl | rfl
    · simp only [List.mem_cons, List.not_mem_nil, or_false] at place
      rcases place with rfl | rfl
      · cases own
      · obtain rfl := Option.some.inj own
        exact ids_spent List.mem_cons_self (by decide)
    · obtain rfl := List.mem_singleton.mp place
      cases own

theorem memory_tame : memory.Stores Flow.Tame := by
  refine memory_stores fun flowId => ⟨⟨by simp, by simp⟩, fun a back => ?_, ?_, by simp⟩
  · obtain ⟨b, ⟨g, held, -, k, place, -⟩, -⟩ := Relation.TransGen.head'_iff.mp back
    obtain rfl := List.mem_singleton.mp held
    cases place
  · simp [IdSource.Misses]

end Sample

/-- A flow that enters itself over and over stops with three frames allowed. -/
theorem limited_run_ends_sample :
    ∃ n, (Point.run ⟨false, 3⟩ n ⟨.start (.root Sample.spiral (some "r")), some "go",
      Sample.memory⟩).1.ending ≠ .interrupted ∧
      ∀ e ∈ (Point.run ⟨false, 3⟩ n ⟨.start (.root Sample.spiral (some "r")), some "go",
        Sample.memory⟩).1.events, e.Within 3 := by
  obtain ⟨⟨n, ended, -⟩, within⟩ := limited_run_ends ⟨false, 3⟩ (by decide) (some "r")
    Sample.neverRepeats Sample.spiral_tame Sample.memory_tame (some "go") rfl
  exact ⟨n, ended, (within n).1⟩

end Dialogue
