import Mathlib.Data.List.Forall2
import Dialogue.Proofs.Above
import Dialogue.Proofs.Loop

/-!
# Linked flows as subroutines

Without a limit on the depth, a frame that finishes alone finishes in the same way above further
frames: the same groups are visited by the same edges with the same answers, the frames underneath
are left alone, and then the frame is popped as those still above it have restored it, and its
return edge is followed from the frame beneath (`finishes_above`). The rounds of the two runs
correspond one by one (`rounds_above`); what makes them do so holds of every session that starts
with the frame (`Session.Sound`).
-/

namespace Dialogue

/-! ### What stays of a frame -/

/-- What became of a frame: variables and answers may be others, and there may be more edges. -/
structure Frame.Persists (f g : Frame) : Prop where
  resultId : g.resultId = f.resultId
  returnEdgeId : g.returnEdgeId = f.returnEdgeId
  merges : g.merges = f.merges
  flowId : g.flow.id = f.flow.id
  groups : g.flow.groups = f.flow.groups

/-- The deepest frame is what became of a given one. -/
def Rooted (c : Frame) (frames : List Frame) : Prop :=
  ∃ l, frames.getLast? = some l ∧ c.Persists l

section

variable {c f g h top parent : Frame} {beneath : List Frame}

theorem Frame.Persists.refl (f : Frame) : f.Persists f := ⟨rfl, rfl, rfl, rfl, rfl⟩

theorem Frame.Persists.trans (hfg : f.Persists g) (hgh : g.Persists h) : f.Persists h :=
  ⟨hgh.resultId.trans hfg.resultId, hgh.returnEdgeId.trans hfg.returnEdgeId,
    hgh.merges.trans hfg.merges, hgh.flowId.trans hfg.flowId, hgh.groups.trans hfg.groups⟩

theorem Frame.Alike.persists (h : f.Alike g) : f.Persists g := by
  obtain ⟨vars, rfl⟩ := h
  exact ⟨rfl, rfl, rfl, rfl, rfl⟩

theorem Frame.persists_resumed (parent finished : Frame) :
    parent.Persists (parent.resumed finished) := by
  unfold Frame.resumed
  split <;> exact ⟨rfl, rfl, rfl, rfl, rfl⟩

theorem Frame.persists_pause (f : Frame) (b : Block) (ids : IdSource) :
    f.Persists (f.pause b ids).caller := by
  rcases f.pause_caller b ids with same | ⟨e, same⟩ <;> rw [same]
  · exact .refl f
  · exact ⟨rfl, rfl, rfl, rfl, rfl⟩

theorem Rooted.exists_cons {frames : List Frame} (rooted : Rooted c frames) :
    ∃ current beneath, frames = current :: beneath := by
  obtain ⟨l, last, -⟩ := rooted
  cases frames with
  | nil => simp at last
  | cons current beneath => exact ⟨current, beneath, rfl⟩

theorem Rooted.head (rooted : Rooted c (f :: beneath)) (stays : f.Persists g) :
    Rooted c (g :: beneath) := by
  obtain ⟨l, hl, persists⟩ := rooted
  cases beneath with
  | nil =>
    obtain rfl : f = l := by simpa using hl
    exact ⟨g, rfl, persists.trans stays⟩
  | cons k rest =>
    rw [List.getLast?_cons_cons] at hl
    exact ⟨l, by rwa [List.getLast?_cons_cons], persists⟩

theorem Rooted.push (rooted : Rooted c (f :: beneath)) (top : Frame) :
    Rooted c (top :: f :: beneath) := by
  unfold Rooted
  rwa [List.getLast?_cons_cons]

theorem Rooted.pop (rooted : Rooted c (top :: parent :: beneath)) :
    Rooted c (parent.resumed top :: beneath) := by
  unfold Rooted at rooted
  rw [List.getLast?_cons_cons] at rooted
  exact Rooted.head rooted (parent.persists_resumed top)

/-! ### Closed flows -/

theorem Flow.Closed.withEdge {f : Flow} (closed : f.Closed) {e : Edge}
    (target : (f.group? e.target.groupId).isSome) : (f.withEdge e).Closed := by
  intro e' he'
  rcases List.mem_append.mp he' with he' | he'
  · exact closed e' he'
  · obtain rfl : e' = e := by simpa using he'
    exact target

theorem Flow.resumeTarget?_group {f : Flow} {b : Block} {t : Target}
    (h : f.resumeTarget? b = some t) : (f.group? t.groupId).isSome := by
  unfold resumeTarget? at h
  split at h
  · simp at h
  · obtain ⟨group, hg, h⟩ := Option.bind_eq_some_iff.mp h
    obtain ⟨after, -, h⟩ := Option.bind_eq_some_iff.mp h
    obtain rfl : (⟨group.id, some after.id⟩ : Target) = t := by simpa using h
    exact List.find?_isSome.mpr ⟨group, List.mem_of_find?_eq_some hg, by simp⟩

theorem Flow.existing_group {f : Flow} {wanted : Option String} {groupId : String}
    (h : f.existing wanted = some groupId) : (f.group? groupId).isSome :=
  (Option.filter_eq_some_iff.mp h).2

theorem Frame.pause_closed (closed : f.flow.Closed) (b : Block) (ids : IdSource) :
    (f.pause b ids).caller.flow.Closed := by
  unfold Frame.pause
  split
  · rename_i t ht
    exact closed.withEdge (Flow.resumeTarget?_group ht)
  · exact closed

end

/-- Every flow that can be found is closed. -/
def Memory.Closed (m : Memory) : Prop :=
  ∀ preview flowId f, m.found preview flowId = .ok (some f) → f.Closed

/-- What holds while a session runs that was started with a frame. -/
structure Session.Sound (c : Frame) (x : Entries) (s : Session) (m : Memory) : Prop where
  healthy : m.outage = .none
  stored : m.Closed
  closed : ∀ f ∈ s.frames, f.flow.Closed
  rooted : Rooted c s.frames
  extra : s.extra = x

namespace Session.Sound

variable {c current top : Frame} {beneath : List Frame} {x extra : Entries} {s : Session}
  {m m' : Memory}

/-- The session keeps running from stores with the same definitions. -/
theorem stores (h : Session.Sound c x s m) (outage : m'.outage = m.outage)
    (drafts : m'.drafts = m.drafts) (published : m'.published = m.published) :
    Session.Sound c x s m' where
  healthy := outage.trans h.healthy
  stored preview flowId f found := by
    rw [Memory.found_congr drafts published] at found
    exact h.stored preview flowId f found
  closed := h.closed
  rooted := h.rooted
  extra := h.extra

/-- A closed frame is pushed upon a caller that is left waiting. -/
theorem push (h : Session.Sound c x ⟨current :: beneath, extra⟩ m) (b : Block) (ids : IdSource)
    (closed : top.flow.Closed) :
    Session.Sound c x ⟨top :: (current.pause b ids).caller :: beneath, extra⟩ m where
  healthy := h.healthy
  stored := h.stored
  closed f hf := by
    rcases List.mem_cons.mp hf with rfl | hf
    · exact closed
    · rcases List.mem_cons.mp hf with rfl | hf
      · exact Frame.pause_closed (h.closed current List.mem_cons_self) b ids
      · exact h.closed f (List.mem_cons_of_mem _ hf)
  rooted := (h.rooted.head (current.persists_pause b ids)).push top
  extra := h.extra

/-- What a block answers keeps the session running. -/
theorem execute {config : Config} {b : Block} {a : Reply} (h : Session.Sound c x s m)
    (ran : exec (Registry.default.execute Memory.host config s b) m = (.ok a, m')) :
    Session.Sound c x (a.session.getD s) m' := by
  obtain ⟨frames, extra⟩ := s
  obtain ⟨current, beneath, rfl⟩ := h.rooted.exists_cons
  by_cases link : b.type = Executor.linkType
  · rw [execute_link config _ link] at ran
    have outcome := link_outcome config extra current beneath b m
    rw [ran] at outcome
    cases outcome with
    | refused r calls => exact h.stores rfl rfl rfl
    | again options groupId _ held =>
      refine (h.push b m.ids ?_).stores rfl rfl rfl
      exact (h.closed current List.mem_cons_self).withEdge (Flow.existing_group held)
    | other options flowId linked groupId p _ _ found held pushed =>
      subst pushed
      have closed : linked.Closed := h.stored _ _ _ found
      refine (h.push b m.ids ?_).stores ?_ ?_ ?_
      · exact Flow.Closed.withEdge (f := linked.withVariables _) closed (Flow.existing_group held)
      · exact Memory.opened_outage _ _
      · exact Memory.opened_drafts _ _
      · exact Memory.opened_published _ _
  · rw [execute_other config _ link, exec_pure] at ran
    obtain ⟨rfl, rfl⟩ : (⟨b.outgoingEdgeId, none, []⟩ : Reply) = a ∧ m = m' := by simpa using ran
    exact h

/-- Following an edge keeps the session running. -/
theorem next {edgeId : Option String} {n : Next} (h : Session.Sound c x s m)
    (ran : exec (Memory.host.next s edgeId) m = (.ok n, m')) : Session.Sound c x n.session m' := by
  obtain ⟨frames, extra⟩ := s
  obtain ⟨current, beneath, rfl⟩ := h.rooted.exists_cons
  obtain ⟨-, session, rfl⟩ := Memory.next_eq_ok h.healthy ran
  rw [← session]
  have left := unwind_frames (P := fun fs => (∀ f ∈ fs, f.flow.Closed) ∧ Rooted c fs) ?_ beneath
    current edgeId ⟨h.closed, h.rooted⟩
  · exact Session.Sound.stores ⟨h.healthy, h.stored, left.1, left.2, h.extra⟩ rfl rfl rfl
  · rintro top parent beneath ⟨closed, rooted⟩
    refine ⟨fun f hf => ?_, rooted.pop⟩
    rcases List.mem_cons.mp hf with rfl | hf
    · exact (closed parent (by simp)).resumed top
    · exact closed f (List.mem_cons_of_mem _ (List.mem_cons_of_mem _ hf))

end Session.Sound

/-! ### Runs above other frames -/

/-- What happens is the other event above further frames. -/
inductive RunEvent.Above (R : List Frame) : RunEvent → RunEvent → Prop
  | entered (group : Group) (depth : Nat) (flowId : String) :
    RunEvent.Above R (.entered group depth flowId) (.entered group (depth + R.length) flowId)
  | reached (flowId : String) (b : Block) :
    RunEvent.Above R (.reached flowId b) (.reached flowId b)
  | answered (b : Block) {a a' : Reply} (h : a.Above R a') :
    RunEvent.Above R (.answered b a) (.answered b a')

/-- A round is the other one above further frames. -/
structure Round.Above (R : List Frame) (v v' : Round) : Prop where
  edgeId : v'.edgeId = v.edgeId
  group : v'.group = v.group
  entered : v.entered.Above R v'.entered
  events : List.Forall₂ (RunEvent.Above R) v.events v'.events
  left : v.pass.session.Above R v'.pass.session
  outcome : v'.pass.outcome = v.pass.outcome

section

variable {config : Config} {c : Frame} {R : List Frame} {x : Entries} {s s' : Session}
  {m m₁ : Memory}

theorem Reply.Above.getD {a a' : Reply} (h : a.Above R a') (hs : s.Above R s') :
    (a.session.getD s).Above R (a'.session.getD s') := by
  obtain ⟨_, session, _⟩ := a
  obtain ⟨_, session', _⟩ := a'
  cases h.session with
  | none => exact hs
  | some above => exact above

theorem Session.Above.activeFlowId (above : s.Above R s') (sound : Session.Sound c x s m) :
    s'.activeFlowId = s.activeFlowId := by
  obtain ⟨frames, extra⟩ := s
  obtain ⟨current, beneath, rfl⟩ := sound.rooted.exists_cons
  obtain ⟨current', beneath', rfl, ⟨vars, rfl⟩, -⟩ := above.of_cons
  rfl

theorem Session.Above.depth (above : s.Above R s') : s'.depth = s.depth + R.length := by
  obtain ⟨frames, split, alike⟩ := above.frames
  simp [Session.depth, split, alike.length_eq]

/-- A block above other frames is executed as alone. -/
theorem execute_above (unlimited : config.maxDepth = 0) {b : Block} {a : Reply}
    (sound : Session.Sound c x s m) (above : s.Above R s')
    (ran : exec (Registry.default.execute Memory.host config s b) m = (.ok a, m₁)) (l : Ledger) :
    ∃ a' l', exec (Registry.default.execute Memory.host config s' b) (m.withResults l) =
      (.ok a', m₁.withResults l') ∧ a.Above R a' := by
  obtain ⟨frames, extra⟩ := s
  obtain ⟨current, beneath, rfl⟩ := sound.rooted.exists_cons
  obtain ⟨current', beneath', rfl, top, rest⟩ := above.of_cons
  by_cases link : b.type = Executor.linkType
  · rw [execute_link config _ link] at ran ⊢
    exact link_above unlimited sound.healthy top rest ran l
  · rw [execute_other config _ link, exec_pure] at ran ⊢
    cases ran
    exact ⟨_, l, rfl, rfl, .none, rfl⟩

/-- The blocks of a group above other frames are executed as alone. -/
theorem blocks_above (unlimited : config.maxDepth = 0) : ∀ (blocks : List Block)
    {s s' : Session} {m m₁ : Memory} {pass : Pass} {edgeId : Option String},
    Session.Sound c x s m → s.Above R s' → s.blocks config blocks m = (pass, m₁) →
    pass.outcome = .ok edgeId → ∀ l,
    Session.Sound c x pass.session m₁ ∧
      ∃ pass' l', s'.blocks config blocks (m.withResults l) = (pass', m₁.withResults l') ∧
        List.Forall₂ (RunEvent.Above R) pass.events pass'.events ∧
        pass.session.Above R pass'.session ∧ pass'.outcome = .ok edgeId
  | [], s, s', m, m₁, pass, edgeId, sound, above, ran, ends, l => by
    obtain ⟨rfl, rfl⟩ : (⟨[], s, .ok none⟩ : Pass) = pass ∧ m = m₁ := Prod.mk.inj ran
    exact ⟨sound, ⟨[], s', .ok none⟩, l, rfl, .nil, above, ends⟩
  | b :: blocks, s, s', m, m₁, pass, edgeId, sound, above, ran, ends, l => by
    rw [Session.blocks_cons] at ran ⊢
    have flowId := above.activeFlowId sound
    rcases executed : exec (Registry.default.execute Memory.host config s b) m with ⟨f | a, m'⟩
    · rw [executed] at ran
      cases ran
      simp at ends
    · obtain ⟨a', l', executed', answer⟩ := execute_above unlimited sound above executed l
      have sound' := sound.execute executed
      have above' := answer.getD above
      have edge := answer.outgoingEdgeId
      rw [executed] at ran
      rw [executed']
      cases outgoing : a.outgoingEdgeId with
      | some id =>
        simp only [outgoing] at ran
        cases ran
        refine ⟨sound', ⟨[.reached s.activeFlowId b, .answered b a'], a'.session.getD s',
          .ok (some id)⟩, l', ?_, .cons (.reached _ b) (.cons (.answered b answer) .nil), above',
          ends⟩
        simp [edge, outgoing, flowId]
      | none =>
        simp only [outgoing] at ran
        rcases rest : (a.session.getD s).blocks config blocks m' with ⟨pass₁, m''⟩
        rw [rest] at ran
        cases ran
        obtain ⟨sound'', pass', l'', rest', events, left, outcome⟩ :=
          blocks_above unlimited blocks sound' above' rest ends l'
        refine ⟨sound'', { pass' with events := .reached s.activeFlowId b :: .answered b a' ::
          pass'.events }, l'', ?_, .cons (.reached _ b) (.cons (.answered b answer) events), left,
          outcome⟩
        simp [edge, outgoing, flowId, rest']

/-- A return to a group above other frames leads there as alone. -/
theorem next_above {edgeId : Option String} {group : Group} {s₁ : Session}
    (sound : Session.Sound c x s m) (above : s.Above R s')
    (ran : exec (Memory.host.next s edgeId) m = (.ok ⟨some group, s₁⟩, m₁)) (l : Ledger) :
    ∃ s₁' l', exec (Memory.host.next s' edgeId) (m.withResults l) =
      (.ok ⟨some group, s₁'⟩, m₁.withResults l') ∧ s₁.Above R s₁' := by
  obtain ⟨frames, extra⟩ := s
  obtain ⟨current, beneath, rfl⟩ := sound.rooted.exists_cons
  obtain ⟨current', beneath', rfl, top, rest⟩ := above.of_cons
  obtain ⟨leads, rfl, rfl⟩ := Memory.next_eq_ok sound.healthy ran
  obtain ⟨leads', popped, frames, split, left⟩ := unwind_above (R := R) top rest leads
  obtain ⟨l', wrote⟩ := Memory.wrote_withResults (closing_ids popped) m l
  have healthy : (m.withResults l).outage = .none := sound.healthy
  refine ⟨⟨frames ++ R, extra⟩, l', ?_, ⟨frames, rfl, left⟩, rfl⟩
  rw [Memory.exec_next_healthy healthy, Unwound.writes, wrote, leads', split]
  rfl

/-- A return that ends the session alone pops its frames above other frames, the last one as well:
each is closed as the return has restored it, and the return goes on from the frame beneath. -/
theorem next_above_finished {edgeId : Option String} {s₁ : Session} (r : Frame) (rs : List Frame)
    (sound : Session.Sound c x s m) (above : s.Above (r :: rs) s')
    (ran : exec (Memory.host.next s edgeId) m = (.ok ⟨none, s₁⟩, m₁)) (l : Ledger) :
    ∃ c₁ inner last c₂ m₂, s₁ = ⟨[c₁], x⟩ ∧ s' = ⟨inner ++ last :: r :: rs, x⟩ ∧
      c₂ = last.restored inner.reverse ∧ c₁.Alike c₂ ∧
      m₂ = (m.withResults l).wrote
        ((restoredEach (last :: inner.reverse)).reverse.filterMap Frame.closing?) ∧
      (∃ l', m₂ = (m₁.withResults l').wrote c₂.closing?.toList) ∧
      exec (Memory.host.next s' edgeId) (m.withResults l) =
        exec (Memory.host.next ⟨r.resumed c₂ :: rs, x⟩ c₂.returnEdgeId) m₂ := by
  obtain ⟨frames, extra⟩ := s
  obtain ⟨current, beneath, rfl⟩ := sound.rooted.exists_cons
  obtain ⟨current', beneath', rfl, top, rest⟩ := above.of_cons
  obtain rfl : extra = x := sound.extra
  obtain ⟨leads, rfl, rfl⟩ := Memory.next_eq_ok sound.healthy ran
  obtain ⟨c₁, c₂, popped, alone, alike, others, each, back⟩ :=
    unwind_above_finished r rs top rest sound.closed leads
  obtain ⟨inner, last, own⟩ : ∃ inner last, current' :: beneath' = inner ++ [last] :=
    (List.eq_nil_or_concat' _).resolve_left (List.cons_ne_nil _ _)
  have stack : current' :: (beneath' ++ r :: rs) = inner ++ last :: r :: rs := by
    rw [← List.cons_append, own, List.append_assoc, List.singleton_append]
  rw [own, List.reverse_append, List.reverse_singleton, List.singleton_append] at each
  have closed : (restoredEach (last :: inner.reverse)).reverse = popped ++ [c₂] := by
    rw [each, List.reverse_cons, List.reverse_reverse]
  obtain ⟨l', wrote⟩ := Memory.wrote_withResults (closing_ids others) m l
  have healthy : (m.withResults l).outage = .none := sound.healthy
  refine ⟨c₁, inner, last, c₂, _, by rw [alone], by rw [stack], (List.cons.inj each).1.symm, alike,
    rfl, ⟨l', ?_⟩, ?_⟩
  · rw [closed, List.filterMap_append, ← Memory.wrote_wrote, wrote, filterMap_closing_single]
    rfl
  · rw [closed]
    exact Memory.exec_next_past_healthy healthy extra back

/-- The rounds of a session are the same above other frames. -/
theorem rounds_above (unlimited : config.maxDepth = 0) {p p₁ : Point} {rounds : List Round}
    (h : Rounds config p rounds p₁) (sound : Session.Sound c x p.session p.memory)
    (above : p.session.Above R s') (l : Ledger) :
    Session.Sound c x p₁.session p₁.memory ∧
      ∃ rounds' s₁' l', Rounds config ⟨s', p.edgeId, p.memory.withResults l⟩ rounds'
          ⟨s₁', p₁.edgeId, p₁.memory.withResults l'⟩ ∧
        List.Forall₂ (Round.Above R) rounds rounds' ∧ p₁.session.Above R s₁' := by
  induction h generalizing s' l with
  | here p => exact ⟨sound, [], s', l, .here _, .nil, above⟩
  | visit next blocks outcome rest ih =>
    have entered := sound.next next
    obtain ⟨t, l₁, next', entered'⟩ := next_above sound above next l
    obtain ⟨sound', pass', l₂, blocks', events, left, outcome'⟩ :=
      blocks_above unlimited _ entered entered' blocks outcome l₁
    obtain ⟨sound₁, rounds', s₁', l', rest', same, above₁⟩ := ih sound' left l₂
    refine ⟨sound₁, _ :: rounds', s₁', l', .visit next' blocks' outcome' rest',
      .cons ⟨rfl, rfl, entered', ?_, left, outcome'.trans outcome.symm⟩ same, above₁⟩
    refine .cons ?_ events
    rw [entered'.depth, entered'.activeFlowId entered]
    exact .entered ..

end

/-- A linked flow is a subroutine. If a frame alone runs to its end, then above other frames it goes
through the same rounds and leaves those frames alone. Then the frames of its own that are left,
`inner` and `last`, are popped from the front to the back: each takes over from the one before if
that one merges, and is closed as it is then. The run goes on by the return edge of the given frame
from the frame beneath, which has taken over the variables and answers of `last` if it merges. -/
theorem finishes_above (config : Config) (unlimited : config.maxDepth = 0) {m : Memory}
    (healthy : m.outage = .none) (stored : m.Closed) {c : Frame} (own : c.flow.Closed) (r : Frame)
    (rs : List Frame) (extra : Entries) (edgeId : Option String) {n : Nat} {alone : Run}
    {m₁ : Memory} (ran : Point.run config n ⟨⟨[c], extra⟩, edgeId, m⟩ = (alone, m₁))
    (finished : alone.ending = .finished) :
    ∃ rounds rounds' p p' c₁ inner last c₂ r₂ m₂,
      Rounds config ⟨⟨[c], extra⟩, edgeId, m⟩ rounds p ∧
      alone = ⟨rounds.flatMap Round.events, ⟨[c₁], extra⟩, .finished⟩ ∧
      Rounds config ⟨⟨c :: r :: rs, extra⟩, edgeId, m⟩ rounds' p' ∧
      List.Forall₂ (Round.Above (r :: rs)) rounds rounds' ∧
      p'.session = ⟨inner ++ last :: r :: rs, extra⟩ ∧
      c₂ = last.restored inner.reverse ∧ c₁.Alike c₂ ∧ c.Persists c₂ ∧
      r₂ = (if c.merges then r.absorb c₂ else r) ∧
      m₂ = p'.memory.wrote
        ((restoredEach (last :: inner.reverse)).reverse.filterMap Frame.closing?) ∧
      (∃ l, m₂ = (m₁.withResults l).wrote c₂.closing?.toList) ∧
      exec (Memory.host.next p'.session p'.edgeId) p'.memory =
        exec (Memory.host.next ⟨r₂ :: rs, extra⟩ c.returnEdgeId) m₂ ∧
      ∀ more, Point.run config (rounds'.length + (more + 1)) ⟨⟨c :: r :: rs, extra⟩, edgeId, m⟩ =
        let rest := Point.run config (more + 1) ⟨⟨r₂ :: rs, extra⟩, c.returnEdgeId, m₂⟩
        (rest.1.behind (rounds'.flatMap Round.events), rest.2) := by
  have sound : Session.Sound c extra ⟨[c], extra⟩ m :=
    ⟨healthy, stored, by simpa using own, ⟨c, rfl, .refl c⟩, rfl⟩
  have above : Session.Above (r :: rs) ⟨[c], extra⟩ ⟨c :: r :: rs, extra⟩ :=
    .cons (.refl c) .nil extra
  obtain ⟨rounds, p, s, there, ending, rfl⟩ := rounds_of_finished n _ ran finished
  obtain ⟨sound', rounds', s', l, there', same, above'⟩ :=
    rounds_above unlimited there sound above m.results
  obtain ⟨c₁, inner, last, c₂, m₂, rfl, rfl, restored, alike, closed, ⟨l', wrote⟩, back⟩ :=
    next_above_finished r rs sound' above' ending l
  have persists : c.Persists c₂ := by
    obtain ⟨l, hl, persists⟩ := (sound'.next ending).rooted
    obtain rfl : c₁ = l := by simpa using hl
    exact persists.trans alike.persists
  have resumed : r.resumed c₂ = if c.merges then r.absorb c₂ else r := by
    rw [Frame.resumed, persists.merges]
  rw [persists.returnEdgeId, resumed] at back
  have run : Rounds config ⟨⟨c :: r :: rs, extra⟩, edgeId, m⟩ rounds'
    ⟨⟨inner ++ last :: r :: rs, extra⟩, p.edgeId, p.memory.withResults l⟩ := there'
  refine ⟨rounds, rounds', p, _, c₁, inner, last, c₂, _, m₂, there, rfl, run, same, rfl, restored,
    alike, persists, rfl, closed, ⟨l', wrote⟩, back, fun more => ?_⟩
  have healthy' : m₂.outage = .none := by
    rw [wrote]
    exact (sound'.next ending).healthy
  have on := Memory.exec_next_healthy healthy' (if c.merges then r.absorb c₂ else r) rs extra
    c.returnEdgeId
  rw [run.run, Point.run_congr (q := ⟨⟨_ :: rs, extra⟩, c.returnEdgeId, m₂⟩) more (back.trans on)
    on]

namespace Sample

/-- A frame that joins the survey. -/
def joiner : Frame :=
  ⟨{ flow with groups := [⟨"g", "", [join]⟩], edges := [⟨"go", .unset, ⟨"g", none⟩⟩] }, some "r",
    some "back", [], true⟩

/-- The frame that it returns to. -/
def waiting : Frame := .root { flow with edges := [⟨"back", .unset, ⟨"g", none⟩⟩] } (some "r")

theorem memory_closed : memory.Closed := by
  intro preview flowId f found
  rcases memory_found preview flowId with h | h
  · cases h.symm.trans found
  · cases h.symm.trans found
    simp [Flow.Closed]

end Sample

/-- Above the frame that waits for it, the joiner visits groups as it does alone. What becomes of it
when those above it are popped is what the waiting frame takes over. -/
theorem finishes_above_sample :
    ∃ rounds p inner last m, rounds ≠ [] ∧ Rounds .default
        ⟨⟨[Sample.joiner, Sample.waiting], []⟩, some "go", Sample.memory⟩ rounds p ∧
      p.session = ⟨inner ++ [last, Sample.waiting], []⟩ ∧
      exec (Memory.host.next p.session p.edgeId) p.memory =
        exec (Memory.host.next ⟨[Sample.waiting.absorb (last.restored inner.reverse)], []⟩
          (some "back")) m := by
  have own : Sample.joiner.flow.Closed := by simp [Flow.Closed, Sample.joiner, Flow.group?]
  obtain ⟨rounds, rounds', p, p', c₁, inner, last, c₂, r₂, m₂, -, alone, above, same, session, rfl,
      -, -, rfl, -, -, back, -⟩ :=
    finishes_above .default rfl (m := Sample.memory) rfl Sample.memory_closed own Sample.waiting []
      [] (some "go") (n := 3) rfl rfl
  refine ⟨rounds', p', inner, last, m₂, ?_, above, session, back⟩
  rintro rfl
  cases same
  exact absurd (congrArg Run.events alone) (List.cons_ne_nil _ _)

end Dialogue
