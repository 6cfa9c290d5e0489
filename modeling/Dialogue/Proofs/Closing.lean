import Mathlib.Data.List.Count
import Mathlib.Data.List.Nodup
import Dialogue.Proofs.Threads

/-!
# How a fork is closed

A link into a flow that does not merge makes a fork: a frame with a result of its own. While no
request fails, the result is closed once, by the return that pops the fork, with what the fork holds
then (`fork_move`). Its id is carried by no frame afterwards and is not drawn again, so that its
record stays as it is (`Gone.play`). `fork_closed_once` puts both together for whole runs, and adds
that nothing but forks is ever completed.
-/

namespace Dialogue

/-- A frame of a flow that writes to a result of its own. -/
structure Frame.Fork (f : Frame) (r flowId : String) : Prop where
  apart : f.merges = false
  carries : f.resultId = some r
  flow : f.flow.id = flowId

/-! ### Counting in the journal -/

/-- How often a result was closed. -/
def Memory.closings (m : Memory) (r : String) : Nat := m.journal.count (.upsertResult r)

namespace Memory

theorem closings_note {m : Memory} {calls : List Call} (quiet : ∀ c ∈ calls, c.closes = false)
    (r : String) : (m.note calls).closings r = m.closings r := by
  have none : calls.count (.upsertResult r) = 0 := by
    refine List.count_eq_zero.mpr fun h => ?_
    simpa [Call.closes] using quiet _ h
  simp [closings, none]

theorem closings_opened (m : Memory) (current : Frame) (r : String) :
    (m.opened current).closings r = m.closings r := by
  unfold opened
  split
  · rfl
  · simp [closings]

theorem closings_wrote (m : Memory) (writes : List ResultWrite) (r : String) :
    (m.wrote writes).closings r = m.closings r + (writes.map (·.id)).count r := by
  have inj : Function.Injective Call.upsertResult := fun a b h => by simpa using h
  have split : writes.map (fun w => Call.upsertResult w.id) =
      (writes.map (·.id)).map Call.upsertResult := by simp
  rw [closings, wrote_journal, List.count_append, split, List.count_map_of_injective _ _ inj]
  rfl

theorem closings_wrote_of_ne {m : Memory} {writes : List ResultWrite} {r : String}
    (h : ∀ w ∈ writes, w.id ≠ r) : (m.wrote writes).closings r = m.closings r := by
  rw [closings_wrote, List.count_eq_zero.mpr]
  · rfl
  · simpa using h

theorem closings_wrote_mem {m : Memory} {writes : List ResultWrite} {w : ResultWrite}
    (distinct : writes.Pairwise fun v w => v.id ≠ w.id) (h : w ∈ writes) :
    (m.wrote writes).closings w.id = m.closings w.id + 1 := by
  rw [closings_wrote, List.count_eq_one_of_mem (List.pairwise_map.mpr distinct)
    (List.mem_map_of_mem h)]

end Memory

section

variable {r flowId : String} {top current caller : Frame} {beneath frames : List Frame}
  {given : String → List Answer} {extra : Entries} {m m' : Memory}

/-- The results that a return closes are all different. -/
theorem Threaded.closing_distinct (h : Threaded (top :: beneath)) (edgeId : Option String) :
    (unwind top beneath edgeId).writes.Pairwise fun v w => v.id ≠ w.id := by
  refine List.pairwise_filterMap.mpr ?_
  refine (List.pairwise_append.mp (h.unwind_apart edgeId)).1.imp fun {f g} apart v hv w hw => ?_
  obtain ⟨fork, carries, -⟩ := Frame.closing?_eq_some hv
  obtain ⟨-, carries', -⟩ := Frame.closing?_eq_some hw
  intro same
  exact apart fork (carries.trans (same ▸ carries'.symm))

/-- A result that a return closes is carried before it. -/
theorem closing_carried {edgeId : Option String} {w : ResultWrite}
    (hw : w ∈ (unwind top beneath edgeId).writes) :
    ∃ k ∈ top :: beneath, k.resultId = some w.id := by
  obtain ⟨f, hf, -, carries, -⟩ := Unwound.mem_writes hw
  obtain ⟨k, hk, result, -⟩ := unwind_kept (List.mem_append_left _ hf)
  exact ⟨k, hk, result.trans carries⟩

/-- A move closes no result but those that a return writes. -/
theorem Turn.unclosed {config : Config} {mv : Move} {w : World}
    (done : Turn config current beneath extra m mv w)
    (other : ∀ edgeId, mv = .next edgeId →
      ∀ v ∈ (unwind current beneath edgeId).writes, v.id ≠ r) :
    w.memory.closings r = m.closings r := by
  cases done with
  | idle b calls quiet => exact Memory.closings_note quiet r
  | other b options flowId linked groupId p =>
    change ((m.note [_]).opened current).closings r = _
    rw [Memory.closings_opened, Memory.closings_note (Memory.reading_closes _ _)]
  | returned edgeId u unwound =>
    subst unwound
    exact Memory.closings_wrote_of_ne (other edgeId rfl)
  | stuck edgeId done w rest fault due fails =>
    have all := other edgeId rfl
    rw [due] at all
    have failed : w.id ≠ r := all w (by simp)
    refine Eq.trans ?_
      (Memory.closings_wrote_of_ne fun v hv => all v (List.mem_append_left _ hv))
    simp [Memory.closings, failed]
  | _ => rfl

/-! ### Results that nobody carries any more -/

/-- A result id that is neither carried nor drawn again. -/
structure World.Gone (w : World) (r : String) : Prop where
  spent : w.memory.ids.Spent r
  left : ∀ f ∈ w.session.frames, f.resultId ≠ some r

namespace World

/-- Nothing happens to a result that is gone. -/
theorem Gone.move {w : World} (gone : w.Gone r) (live : w.Live given) (config : Config)
    (mv : Move) :
    (w.move config mv).Gone r ∧
      (w.move config mv).memory.results.get? r = w.memory.results.get? r ∧
      (w.move config mv).memory.closings r = w.memory.closings r ∧ w.gives r mv = [] := by
  obtain ⟨⟨frames, extra⟩, m⟩ := w
  obtain ⟨current, beneath, rfl⟩ := List.exists_cons_of_ne_nil live.active
  have other : current.resultId ≠ some r := gone.left current List.mem_cons_self
  have kept (edgeId : Option String) :
      ∀ w ∈ (Dialogue.unwind current beneath edgeId).writes, w.id ≠ r := by
    rintro w hw rfl
    obtain ⟨k, hk, carries⟩ := closing_carried hw
    exact gone.left k hk carries
  have done := turn config current beneath extra m mv
  generalize World.move config _ mv = w' at done ⊢
  refine ⟨⟨gone.spent.onward done.onward, fun f hf carries => ?_⟩, ?_,
    done.unclosed fun edgeId _ => kept edgeId, ?_⟩
  · rcases done.carried (live.threaded.live current List.mem_cons_self) hf carries with
      ⟨k, hk, carried⟩ | drawn
    · exact gone.left k hk carried
    · exact drawn.not_spent gone.spent
  · cases done with
    | other => exact Memory.opened_get?_of_ne _ other
    | returned edgeId u unwound =>
      subst unwound
      exact Memory.wrote_get?_of_ne (kept edgeId)
    | stuck edgeId done w rest fault due fails =>
      exact Memory.wrote_get?_of_ne fun v hv => kept edgeId v (due ▸ List.mem_append_left _ hv)
    | _ => rfl
  · cases mv with
    | answer a => simp [gives, activeResult, Session.active?, other]
    | _ => rfl

/-- A record of a result that is gone stays as it is, and is not closed again. -/
theorem Gone.play : ∀ (moves : List Move) {w : World} {given : String → List Answer}, w.Gone r →
    w.Live given → ∀ (config : Config),
    (w.play config moves).memory.results.get? r = w.memory.results.get? r ∧
      (w.play config moves).memory.closings r = w.memory.closings r ∧
      w.given config r moves = []
  | [], _, _, _, _, _ => ⟨rfl, rfl, rfl⟩
  | mv :: moves, w, given, gone, live, config => by
    obtain ⟨still, row, count, quiet⟩ := gone.move live config mv
    obtain ⟨rows, counts, quiets⟩ := Gone.play moves still (live.move config mv) config
    exact ⟨rows.trans row, counts.trans count, by simp [World.given, quiet, quiets]⟩

/-! ### Results that are carried -/

/-- No request fails, and no result is closed that is carried or whose id may still be drawn. -/
structure Tidy (w : World) : Prop where
  healthy : w.memory.outage = .none
  carried : ∀ f ∈ w.session.frames, ∀ r, f.resultId = some r → w.memory.closings r = 0
  unused : ∀ r, ¬ w.memory.ids.Spent r → w.memory.closings r = 0

/-- Without a fault, a move closes only results that it leaves behind. -/
theorem Tidy.move {w : World} (h : w.Tidy) (live : w.Live given) (config : Config) (mv : Move) :
    (w.move config mv).Tidy := by
  obtain ⟨⟨frames, extra⟩, m⟩ := w
  obtain ⟨current, beneath, rfl⟩ := List.exists_cons_of_ne_nil live.active
  have done := turn config current beneath extra m mv
  generalize World.move config _ mv = w' at done ⊢
  refine ⟨done.outage.trans h.healthy, fun f hf r hr => ?_, fun r hr => ?_⟩
  · have kept : ∀ edgeId, mv = .next edgeId →
        ∀ v ∈ (unwind current beneath edgeId).writes, v.id ≠ r := by
      rintro edgeId rfl v hv rfl
      cases done with
      | returned _ u unwound =>
        subst unwound
        exact live.threaded.closing_left hv f hf hr
      | stuck _ done w rest fault due fails =>
        have healthy : m.outage = .none := h.healthy
        simp [healthy, Outage.none] at fails
    rw [done.unclosed kept]
    rcases done.carried (live.threaded.live current List.mem_cons_self) hf hr with
      ⟨k, hk, carries⟩ | drawn
    · exact h.carried k hk r carries
    · exact h.unused r drawn.not_spent
  · have unspent : ¬ m.ids.Spent r := fun spent => hr (spent.onward done.onward)
    have kept : ∀ edgeId, mv = .next edgeId →
        ∀ v ∈ (unwind current beneath edgeId).writes, v.id ≠ r := by
      rintro edgeId - v hv rfl
      obtain ⟨k, hk, carries⟩ := closing_carried hv
      exact unspent (live.carried k hk v.id carries)
    rw [done.unclosed kept]
    exact h.unused r unspent

/-- The frames that following an edge pops, each as it is when it is popped. -/
def popped (w : World) (edgeId : Option String) : List Frame :=
  match w.session.frames with
  | [] => []
  | top :: beneath => (unwind top beneath edgeId).popped

/-- A move leaves a fork on the stack, or it is the return that pops it. This return closes its
result, with the flow of the fork, the variables that it has when it is popped, and the mark that
tells whether answers were given. -/
theorem fork_move {w : World} (live : w.Live given) (tidy : w.Tidy) {k : Frame}
    (hk : k ∈ w.session.frames) (fork : k.Fork r flowId) (config : Config) (mv : Move) :
    (∃ k ∈ (w.move config mv).session.frames, k.Fork r flowId) ∨
      ∃ edgeId f, mv = .next edgeId ∧ f ∈ w.popped edgeId ∧ f.Fork r flowId ∧
        (w.move config mv).Gone r ∧ (w.move config mv).memory.closings r = 1 ∧
        (w.move config mv).memory.results.get? r =
          some ⟨r, flowId, !(given r).isEmpty, true, f.flow.vars.filter Variable.hasValue⟩ := by
  obtain ⟨⟨frames, extra⟩, m⟩ := w
  obtain ⟨current, beneath, rfl⟩ := List.exists_cons_of_ne_nil live.active
  have done := turn config current beneath extra m mv
  rcases done.keeps hk with ⟨f, hf, result, merges, flow⟩ | ⟨edgeId, f, hf, rfl, same, reached⟩
  · exact .inl ⟨f, hf, merges.trans fork.apart, result.trans fork.carries, flow.trans fork.flow⟩
  · right
    rw [reached]
    have fork' : f.Fork r flowId := by
      refine ⟨?_, ?_, ?_⟩
      · exact (congrArg (·.merges) same).trans fork.apart
      · exact (congrArg (·.resultId) same).trans fork.carries
      · exact (congrArg (·.flow.id) same).trans fork.flow
    obtain ⟨parent, under, threaded, answered⟩ := unwind_popped
      (P := fun fs => Threaded fs ∧ Answered given fs)
      (fun _ _ _ hp => ⟨hp.1.pop, hp.2.pop hp.1⟩) beneath current edgeId
      ⟨live.threaded, live.answered⟩ f hf
    have closing : f.closing? = some ⟨r, f.flow, !(given r).isEmpty, true⟩ := by
      rw [← answered.first fork'.carries]
      simp [Frame.closing?, fork'.apart, fork'.carries]
    -- the writes of a return differ in their ids, so this one is neither preceded nor overwritten
    have due := List.mem_filterMap.mpr ⟨f, hf, closing⟩
    have distinct := live.threaded.closing_distinct edgeId
    refine ⟨edgeId, f, rfl, hf, fork', ⟨?_, live.threaded.closing_left due⟩, ?_, ?_⟩
    · exact live.carried k hk r fork.carries
    · have before : m.closings r = 0 := tidy.carried k hk r fork.carries
      have after := Memory.closings_wrote_mem (m := m) distinct due
      exact after.trans (by rw [before])
    · have row := Memory.wrote_get?_mem (m := m) distinct due
      rw [ResultWrite.row, fork'.flow] at row
      exact row

/-- A return, behind some moves of a run and before the rest of it, pops the fork that a result was
made for, and closes the result for good. -/
structure ClosesAt (config : Config) (w₀ : World) (r flowId : String) (before : List Move)
    (edgeId : Option String) (rest : List Move) (f : Frame) : Prop where
  pops : f ∈ (w₀.play config before).popped edgeId
  fork : f.Fork r flowId
  unclosed : (w₀.play config before).memory.closings r = 0
  once : ∀ now, now <+: rest →
    (w₀.play config (before ++ .next edgeId :: now)).memory.closings r = 1
  kept : ∀ now, now <+: rest →
    (w₀.play config (before ++ .next edgeId :: now)).memory.results.get? r =
      some ⟨r, flowId, !(w₀.given config r (before ++ .next edgeId :: now)).isEmpty, true,
        f.flow.vars.filter Variable.hasValue⟩

/-- From a point of a run on, a fork is left on the stack, or one of the returns closes it. -/
theorem fork_play {config : Config} {w₀ : World}
    (live : ∀ moves, (w₀.play config moves).Live fun r => w₀.given config r moves)
    (tidy : ∀ moves, (w₀.play config moves).Tidy) : ∀ (after before : List Move),
    (∃ k ∈ (w₀.play config before).session.frames, k.Fork r flowId) →
    (∃ k ∈ (w₀.play config (before ++ after)).session.frames, k.Fork r flowId) ∨
      ∃ middle edgeId rest f, after = middle ++ .next edgeId :: rest ∧
        w₀.ClosesAt config r flowId (before ++ middle) edgeId rest f
  | [], before, held => by
    rw [List.append_nil]
    exact .inl held
  | mv :: after, before, ⟨k, hk, fork⟩ => by
    rcases fork_move (live before) (tidy before) hk fork config mv with
      held | ⟨edgeId, f, rfl, hf, popped, gone, count, row⟩
    · rw [← play_concat] at held
      rw [List.append_cons]
      rcases fork_play live tidy after (before ++ [mv]) held with
        still | ⟨middle, edgeId, rest, f, rfl, closes⟩
      · exact .inl still
      · rw [← List.append_cons] at closes
        exact .inr ⟨mv :: middle, edgeId, rest, f, rfl, closes⟩
    · right
      have later (now : List Move) := gone.play now ((live before).move config _) config
      refine ⟨[], edgeId, after, f, rfl, ?_⟩
      rw [List.append_nil]
      refine ⟨hf, popped, (tidy before).carried k hk r fork.carries, fun now _ => ?_,
        fun now _ => ?_⟩
      · rw [play_append, play_cons]
        exact (later now).2.1.trans count
      · rw [play_append, play_cons, (later now).1, row, given_append]
        simp [given, gives, (later now).2.2]

/-! ### Where forks come from -/

/-- A block pushes a frame that does not merge. -/
structure Forks (config : Config) (w : World) (b : Block) (top : Frame) : Prop where
  deeper : (w.move config (.execute b)).session.depth = w.session.depth + 1
  first : (w.move config (.execute b)).session.active? = some top
  apart : top.merges = false

/-- In the course of some moves a block has made a fork with a result. -/
def Forked (config : Config) (w : World) (moves : List Move) (r : String) : Prop :=
  ∃ before b after top, moves = before ++ .execute b :: after ∧
    (w.play config before).Forks config b top ∧ top.resultId = some r

theorem Forked.concat {config : Config} {w : World} {moves : List Move}
    (h : w.Forked config moves r) (mv : Move) : w.Forked config (moves ++ [mv]) r := by
  obtain ⟨before, b, after, top, rfl, forks, carries⟩ := h
  exact ⟨before, b, after ++ [mv], top, by simp, forks, carries⟩

/-- A block that makes a fork is a link to the flow of the fork. -/
theorem Forks.linked {config : Config} {w : World} {b : Block} (h : w.Forks config b top)
    (live : w.Live given) :
    ∃ options, b.linkOptions = .ok options ∧ options.flow? = some top.flow.id := by
  obtain ⟨⟨frames, extra⟩, m⟩ := w
  obtain ⟨current, beneath, rfl⟩ := List.exists_cons_of_ne_nil live.active
  obtain ⟨deeper, first, apart⟩ := h
  have done := turn config current beneath extra m (.execute b)
  generalize World.move config _ (.execute b) = w' at done deeper first
  cases done with
  | idle b calls => simp [Session.depth] at deeper
  | again b options groupId p _ _ pushed =>
    subst pushed
    obtain rfl : (current.pushAgain b groupId m.ids).top = top := by
      simpa [Session.active?] using first
    simp at apart
  | other b options flowId linked groupId p wanted named found _ pushed =>
    generalize current.flow.mergesLinked _ _ = merges at pushed
    subst pushed
    obtain rfl : (current.pushOther beneath b merges linked groupId m.ids).top = top := by
      simpa [Session.active?] using first
    have active : current.isPreview = false := by
      obtain ⟨r, hr⟩ := Option.ne_none_iff_exists'.mp
        (live.threaded.live current List.mem_cons_self)
      simp [Frame.isPreview, hr]
    rw [active] at found
    exact ⟨options, wanted, named.trans (congrArg some (Memory.found_id found).symm)⟩

/-- What tells where forks and completed records come from: the deepest frame carries the first
result, and everything else goes back to a fork that was made. -/
structure Traced (config : Config) (w₀ : World) (r₀ : String) (moves : List Move) (w : World) :
    Prop where
  root : (w.session.frames.map (·.resultId)).getLast? = some (some r₀)
  forked : ∀ f ∈ w.session.frames, f.merges = false → ∀ r, f.resultId = some r →
    r = r₀ ∨ w₀.Forked config moves r
  completed : ∀ r row, w.memory.results.get? r = some row → row.isCompleted = true →
    r ≠ r₀ ∧ w₀.Forked config moves r

theorem Traced.concat {config : Config} {w₀ w w' : World} {r₀ : String} {moves : List Move}
    (h : Traced config w₀ r₀ moves w) (mv : Move)
    (root : (w'.session.frames.map (·.resultId)).getLast? = some (some r₀))
    (forked : ∀ f ∈ w'.session.frames, f.merges = false → ∀ r, f.resultId = some r →
      (∃ k ∈ w.session.frames, k.merges = false ∧ k.resultId = some r) ∨
        w₀.Forked config (moves ++ [mv]) r)
    (completed : ∀ r row, w'.memory.results.get? r = some row → row.isCompleted = true →
      w.memory.results.get? r = some row ∨ r ≠ r₀ ∧ w₀.Forked config moves r) :
    Traced config w₀ r₀ (moves ++ [mv]) w' where
  root := root
  forked f hf apart r carries := by
    rcases forked f hf apart r carries with ⟨k, hk, apart, carries⟩ | new
    · exact (h.forked k hk apart r carries).imp_right (·.concat mv)
    · exact .inr new
  completed r row found done := by
    rcases completed r row found done with old | new
    · exact (h.completed r row old done).imp_right (·.concat mv)
    · exact new.imp_right (·.concat mv)

/-- A session that starts is tidy, and stays so as long as nothing fails. -/
theorem tidy_play (config : Config) (flow : Flow) {r₀ : String} {m : Memory}
    (fresh : m.ids.NeverRepeats) (spent : m.ids.Spent r₀) (silent : m.journal = [])
    (healthy : m.outage = .none) (moves : List Move) :
    ((start flow (some r₀) m).play config moves).Tidy := by
  refine play_induct (P := fun _ w => w.Tidy) config _ ?_ (fun moves mv h => ?_) moves
  · have none (r : String) : m.closings r = 0 := by simp [Memory.closings, silent]
    exact ⟨healthy, fun _ _ r _ => none r, fun r _ => none r⟩
  · exact h.move (live_play config flow fresh spent moves) config mv

/-- The deepest frame is never popped. -/
theorem root_left (edgeId : Option String) {r₀ : String}
    (root : ((current :: beneath).map (·.resultId)).getLast? = some (some r₀)) :
    ((unwind current beneath edgeId).frames.map (·.resultId)).getLast? = some (some r₀) := by
  rw [← unwind_resultIds beneath current edgeId, List.map_append,
    List.getLast?_append_of_ne_nil _
      (by simpa using unwind_frames_ne_nil beneath current edgeId)] at root
  exact root

/-- A return closes results of forks only. -/
theorem Traced.closing {config : Config} {w₀ : World} {r₀ : String} {moves : List Move}
    (h : Traced config w₀ r₀ moves ⟨⟨current :: beneath, extra⟩, m⟩)
    (live : World.Live ⟨⟨current :: beneath, extra⟩, m⟩ given) {edgeId : Option String}
    {w : ResultWrite} (due : w ∈ (unwind current beneath edgeId).writes) :
    w.id ≠ r₀ ∧ w₀.Forked config moves w.id := by
  have other : w.id ≠ r₀ := by
    intro first
    obtain ⟨k, hk, carries⟩ := List.mem_map.mp (List.mem_of_getLast? (root_left edgeId h.root))
    exact live.threaded.closing_left due k hk (first ▸ carries)
  obtain ⟨f, hf, apart, carries, -⟩ := Unwound.mem_writes due
  obtain ⟨k, hk, result, merges⟩ := unwind_kept (List.mem_append_left _ hf)
  have origin := h.forked k hk (merges.trans apart) w.id (result.trans carries)
  exact ⟨other, origin.resolve_left other⟩

theorem Traced.move {config : Config} {w₀ w : World} {r₀ : String} {moves : List Move}
    (h : Traced config w₀ r₀ moves w) (reached : w = w₀.play config moves) (live : w.Live given)
    (mv : Move) : Traced config w₀ r₀ (moves ++ [mv]) (w.move config mv) := by
  obtain ⟨⟨frames, extra⟩, m⟩ := w
  obtain ⟨current, beneath, rfl⟩ := List.exists_cons_of_ne_nil live.active
  have root : ((current :: beneath).map (·.resultId)).getLast? = some (some r₀) := h.root
  have same (top : Frame) (merges : top.merges = current.merges)
      (result : top.resultId = current.resultId) : ∀ f ∈ top :: beneath, f.merges = false →
      ∀ r, f.resultId = some r →
        ∃ k ∈ current :: beneath, k.merges = false ∧ k.resultId = some r := by
    intro f hf apart r hr
    rcases List.mem_cons.mp hf with rfl | hf
    · exact ⟨current, List.mem_cons_self, merges ▸ apart, result ▸ hr⟩
    · exact ⟨f, List.mem_cons_of_mem _ hf, apart, hr⟩
  have done := turn config current beneath extra m mv
  generalize performed : World.move config _ mv = w' at done ⊢
  cases done with
  | idle b calls =>
    exact h.concat _ h.root (fun f hf apart r hr => .inl ⟨f, hf, apart, hr⟩) fun _ _ found _ =>
      .inl found
  | again b options groupId p _ _ pushed =>
    subst pushed
    refine h.concat _ ?_ (fun f hf apart r hr => .inl ?_) fun _ _ found _ => .inl found
    · simpa using root
    · rcases List.mem_cons.mp hf with rfl | hf
      · simp at apart
      · exact same (current.pause b m.ids).caller (by simp) (by simp) f hf apart r hr
  | other b options flowId linked groupId p _ _ _ _ pushed =>
    generalize current.flow.mergesLinked _ _ = merges at pushed
    subst pushed
    refine h.concat _ ?_ (fun f hf apart r hr => ?_) fun r row found done => .inl ?_
    · simpa using root
    · rcases List.mem_cons.mp hf with rfl | hf
      · right
        refine ⟨moves, b, [], _, rfl, ⟨?_, ?_, apart⟩, hr⟩
        · rw [← reached, performed]
          rfl
        · rw [← reached, performed]
          rfl
      · left
        exact same (current.pause b m.ids).caller (by simp) (by simp) f hf apart r hr
    · rcases Memory.opened_get? found with old | ⟨-, -, -, rfl⟩
      · exact old
      · simp [ResultWrite.row] at done
  | returned edgeId u unwound =>
    subst unwound
    refine h.concat _ (root_left edgeId root) (fun f hf apart r hr => .inl ?_) ?_
    · obtain ⟨k, hk, result, merges⟩ := unwind_kept (List.mem_append_right _ hf)
      exact ⟨k, hk, merges.trans apart, result.trans hr⟩
    · intro r row found _
      rcases Memory.wrote_get? found with old | ⟨w, due, rfl, -⟩
      · exact .inl old
      · exact .inr (h.closing live due)
  | stuck edgeId done w rest fault due fails =>
    refine h.concat _ h.root (fun f hf apart r hr => .inl ⟨f, hf, apart, hr⟩) ?_
    intro r row found _
    rcases Memory.wrote_get? found with old | ⟨v, hv, rfl, -⟩
    · exact .inl old
    · exact .inr (h.closing live (due ▸ List.mem_append_left _ hv))
  | answered a =>
    refine h.concat _ h.root (fun f hf apart r hr => .inl ?_) fun _ _ found _ => .inl found
    exact same (current.addAnswer a) rfl rfl f hf apart r hr
  | edited vars =>
    refine h.concat _ h.root (fun f hf apart r hr => .inl ?_) fun _ _ found _ => .inl found
    exact same (current.withVars vars) rfl rfl f hf apart r hr
  | restocked drafts published =>
    exact h.concat _ h.root (fun f hf apart r hr => .inl ⟨f, hf, apart, hr⟩) fun _ _ found _ =>
      .inl found

theorem traced_play (config : Config) (flow : Flow) {r₀ : String} {m : Memory}
    (fresh : m.ids.NeverRepeats) (spent : m.ids.Spent r₀) (blank : m.results = .empty)
    (moves : List Move) : Traced config (start flow (some r₀) m) r₀ moves
      ((start flow (some r₀) m).play config moves) := by
  refine play_induct (P := Traced config (start flow (some r₀) m) r₀) config _ ?_
    (fun moves mv h => ?_) moves
  · refine ⟨rfl, fun f hf _ r carries => .inl ?_, fun r row found => ?_⟩
    · obtain rfl : f = Frame.root flow (some r₀) := by simpa [start, Session.start] using hf
      exact (by simpa [Frame.root] using carries : r₀ = r).symm
    · simp [start, blank] at found
  · exact h.move rfl (live_play config flow fresh spent moves) mv

end World

end

/-- Every fork is closed once, by the return that pops it, and its record stays from then on to the
end of the run. No other result is ever completed. -/
theorem fork_closed_once (config : Config) (flow : Flow) {r₀ : String} {m : Memory}
    (fresh : m.ids.NeverRepeats) (spent : m.ids.Spent r₀) (blank : m.results = .empty)
    (silent : m.journal = []) (healthy : m.outage = .none) {w₀ : World}
    (start : w₀ = .start flow (some r₀) m) (moves : List Move) :
    (∀ before b after top r, moves = before ++ .execute b :: after →
      (w₀.play config before).Forks config b top → top.resultId = some r →
      (∃ options, b.linkOptions = .ok options ∧ options.flow? = some top.flow.id) ∧
      ((w₀.play config moves).memory.closings r = 0 ∧
          (∃ k ∈ (w₀.play config moves).session.frames, k.Fork r top.flow.id) ∨
        ∃ middle edgeId rest f, after = middle ++ .next edgeId :: rest ∧
          w₀.ClosesAt config r top.flow.id (before ++ .execute b :: middle) edgeId rest f)) ∧
    ∀ r row, (w₀.play config moves).memory.results.get? r = some row → row.isCompleted = true →
      r ≠ r₀ ∧ w₀.Forked config moves r := by
  subst start
  have live := World.live_play config flow fresh spent
  have tidy := World.tidy_play config flow fresh spent silent healthy
  refine ⟨?_, (World.traced_play config flow fresh spent blank moves).completed⟩
  rintro before b after top r rfl forks carries
  refine ⟨forks.linked (live before), ?_⟩
  have held : ∃ k ∈ ((World.start flow (some r₀) m).play config
      (before ++ [.execute b])).session.frames, k.Fork r top.flow.id := by
    rw [World.play_concat]
    exact ⟨top, List.mem_of_mem_head? forks.first, forks.apart, carries, rfl⟩
  rcases World.fork_play live tidy after _ held with
    ⟨k, hk, fork⟩ | ⟨middle, edgeId, rest, f, rfl, closes⟩
  · rw [← List.append_cons] at hk
    exact .inl ⟨(tidy _).carried k hk r fork.carries, k, hk, fork⟩
  · rw [← List.append_cons] at closes
    exact .inr ⟨middle, edgeId, rest, f, rfl, closes⟩

/-- A fork that is answered and finished is closed by the return. -/
theorem fork_closed_once_sample :
    ∃ middle edgeId rest f, Sample.forking.tail = middle ++ .next edgeId :: rest ∧
      (World.start Sample.flow (some "r") Sample.memory).ClosesAt .default "i" "audit"
        (.execute Sample.fork :: middle) edgeId rest f := by
  have closed := (fork_closed_once (m := Sample.memory) .default Sample.flow Sample.neverRepeats
    Sample.spent rfl rfl rfl rfl Sample.forking).1 [] Sample.fork Sample.forking.tail _ "i" rfl
    ⟨rfl, rfl, rfl⟩ rfl
  have once : ((World.start Sample.flow (some "r") Sample.memory).play .default
    Sample.forking).memory.closings "i" ≠ 0 := by decide
  exact closed.2.resolve_left fun h => once h.1

end Dialogue
