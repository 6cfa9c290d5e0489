import Mathlib.Logic.Function.Basic
import Dialogue.Proofs.Deeds

/-!
# Sessions that share the stores

Live sessions may share the stores, each with ids from a source of its own. A session touches the
records of its own results only: the one it starts with, and those under ids that it draws. So if no
two sessions own the same id, each of them goes as if it were alone, however their deeds are
interleaved, and the records that they leave are those that they leave alone, side by side
(`sessions_independent`).

`Beside` relates shared stores to those of a session that is alone; the deeds of the session keep it
(`beside_respects`), and so do those of all others, as they leave its records alone.
-/

namespace Dialogue

variable {α : Type}

/-- The source may still yield an id. -/
def IdSource.Yields (s : IdSource) (id : String) : Prop := ∃ n, s.drawn ≤ n ∧ s.id n = id

/-- Whether a request fails does not depend on the requests before it. -/
def Outage.Steady (o : Outage) : Prop := ∀ calls calls' call, o calls call = o calls' call

/-- The results of a session: the one that it starts with, and those under ids that it may draw. -/
def OwnResult (root : String) (ids : IdSource) (r : String) : Prop := r = root ∨ ids.Yields r

/-! ### Stores that are shared -/

/-- What sessions never change in the stores: the definitions, and which requests fail. -/
def Memory.stock (m : Memory) : Table Definition × Table Definition × Outage :=
  (m.drafts, m.published, m.outage)

/-- Shared stores look to a session like those that it has when it is alone: the definitions, the
ids to come and the records of its own results are the same. The records of others are what they
were, and there are none when it is alone. -/
structure Memory.Beside (own : String → Prop) (base : Memory) (before : Ledger)
    (shared alone : Memory) : Prop where
  shared_stock : shared.stock = base.stock
  alone_stock : alone.stock = base.stock
  ids : shared.ids = alone.ids
  yields : ∀ r, alone.ids.Yields r → own r
  mine : ∀ r, own r → shared.results.get? r = alone.results.get? r
  theirs : ∀ r, ¬ own r → shared.results.get? r = before.get? r
  absent : ∀ r, ¬ own r → alone.results.get? r = none

/-- The requests that are about no result of others. -/
def Call.concerns (own : String → Prop) : Call → Prop
  | .ensureResult r => own r
  | .upsertResult r => own r
  | _ => True

section

variable {own : String → Prop} {base : Memory} {before : Ledger} {shared alone : Memory}

namespace Memory.Beside

theorem drafts (h : Beside own base before shared alone) : shared.drafts = alone.drafts :=
  congrArg (·.1) (h.shared_stock.trans h.alone_stock.symm)

theorem published (h : Beside own base before shared alone) : shared.published = alone.published :=
  congrArg (·.2.1) (h.shared_stock.trans h.alone_stock.symm)

theorem outages (h : Beside own base before shared alone) :
    shared.outage = base.outage ∧ alone.outage = base.outage :=
  ⟨congrArg (·.2.2) h.shared_stock, congrArg (·.2.2) h.alone_stock⟩

/-- Between two deeds the records of others are those that are there. -/
theorem settled (h : Beside own base before shared alone) :
    Beside own base shared.results shared alone :=
  ⟨h.shared_stock, h.alone_stock, h.ids, h.yields, h.mine, fun _ _ => rfl, h.absent⟩

/-- What a session does to the shared stores leaves another as it was, if they own no result both.
-/
theorem other {own' : String → Prop} {shared' alone' : Memory}
    (h : Beside own base before shared alone) (now : shared.results = before)
    (h' : Beside own' base before shared' alone') (apart : ∀ r, own r → ¬ own' r) :
    Beside own base shared'.results (shared'.withIds shared.ids) alone where
  shared_stock := h'.shared_stock
  alone_stock := h.alone_stock
  ids := h.ids
  yields := h.yields
  mine r hr := by
    change shared'.results.get? r = alone.results.get? r
    rw [h'.theirs r (apart r hr), ← now, h.mine r hr]
  theirs _ _ := rfl
  absent := h.absent

end Memory.Beside

/-- A request is answered alike if what answers it does, since stores that fail steadily fail alike.
-/
theorem Memory.answer_alike (steady : base.outage.Steady) (call : Call) {body : Memory → α × Memory}
    (alike : ∀ shared alone, Beside own base before shared alone →
      (body shared).1 = (body alone).1 ∧ Beside own base before (body shared).2 (body alone).2) :
    Alike (Beside own base before) (answer call body).run fun _ => True := by
  intro shared alone h
  have noted : Beside own base before (shared.note [call]) (alone.note [call]) :=
    ⟨h.shared_stock, h.alone_stock, h.ids, h.yields, h.mine, h.theirs, h.absent⟩
  obtain ⟨same, later⟩ := alike _ _ noted
  -- the two journals differ by the requests of others
  have fails : shared.outage shared.journal call = alone.outage alone.journal call := by
    rw [h.outages.1, h.outages.2]
    exact steady _ _ call
  rw [Memory.answer_run, Memory.answer_run, fails]
  cases alone.outage alone.journal call with
  | some fault => exact ⟨rfl, noted, trivial⟩
  | none => exact ⟨congrArg Except.ok same, later, trivial⟩

/-- A change of one own record, by what is there, is the same on both sides. -/
theorem Memory.Beside.write (h : Beside own base before shared alone) {r : String} (mine : own r)
    (change : Ledger → Ledger)
    (there : ∀ l l' : Ledger, l.get? r = l'.get? r → (change l).get? r = (change l').get? r)
    (elsewhere : ∀ (l : Ledger) r', r ≠ r' → (change l).get? r' = l.get? r') :
    Beside own base before { shared with results := change shared.results }
      { alone with results := change alone.results } where
  shared_stock := h.shared_stock
  alone_stock := h.alone_stock
  ids := h.ids
  yields := h.yields
  mine r' hr' := by
    by_cases same : r = r'
    · subst same
      exact there _ _ (h.mine r mine)
    · rw [elsewhere _ r' same, elsewhere _ r' same]
      exact h.mine r' hr'
  theirs r' hr' := by
    rw [elsewhere _ r' fun same => hr' (same ▸ mine)]
    exact h.theirs r' hr'
  absent r' hr' := by
    rw [elsewhere _ r' fun same => hr' (same ▸ mine)]
    exact h.absent r' hr'

/-- Requests about own results are answered alike by shared stores and by those of a session alone.
-/
theorem beside_respects (steady : base.outage.Steady) :
    Memory.host.Respects (Call.concerns own) own (Memory.Beside own base before) where
  draft flowId _ := Memory.answer_alike steady _ fun shared alone h => by
    rw [h.drafts]
    exact ⟨rfl, h⟩
  published flowId _ := Memory.answer_alike steady _ fun shared alone h => by
    rw [h.published]
    exact ⟨rfl, h⟩
  ensure w mine := Memory.answer_alike steady _ fun shared alone h => by
    refine ⟨rfl, h.write mine (Ledger.ensure · w) (fun l l' same => ?_)
      fun l r' other => Ledger.get?_ensure_of_ne l other⟩
    rw [Ledger.get?_ensure_self, Ledger.get?_ensure_self, same]
  upsert w mine := Memory.answer_alike steady _ fun shared alone h => by
    refine ⟨rfl, h.write mine (Ledger.upsert · w) (fun l l' _ => ?_)
      fun l r' other => Ledger.get?_upsert_of_ne l other⟩
    rw [Ledger.get?_upsert_self, Ledger.get?_upsert_self]
  freshId := by
    intro shared alone h
    change shared.ids.next.1 = alone.ids.next.1 ∧ Memory.Beside own base before
      (shared.withIds shared.ids.next.2) (alone.withIds alone.ids.next.2) ∧ own shared.ids.next.1
    rw [h.ids]
    refine ⟨rfl, ?_, h.yields _ ⟨_, Nat.le_refl _, rfl⟩⟩
    have later : ∀ r, alone.ids.next.2.Yields r → own r := by
      rintro _ ⟨n, hn, rfl⟩
      exact h.yields _ ⟨n, Nat.le_of_succ_le hn, rfl⟩
    exact ⟨h.shared_stock, h.alone_stock, rfl, later, h.mine, h.theirs, h.absent⟩

end

/-- Every frame carries a result of the session. -/
def Session.Owned (own : String → Prop) (s : Session) : Prop :=
  ∀ f ∈ s.frames, ∃ r, f.resultId = some r ∧ own r

section

variable {own : String → Prop} {s s' : Session} {d : Deed}

theorem Session.Owned.became (h : s.Owned own) (became : s.Became own d s') : s'.Owned own := by
  intro f hf
  obtain ⟨k, hk, same | ⟨-, new⟩⟩ := became.result hf
  · obtain ⟨r, carries, mine⟩ := h k hk
    exact ⟨r, same.trans carries, mine⟩
  · exact new

/-- The requests that suit the frames are about own results. -/
theorem Session.Owned.concerns (h : s.Owned own) :
    ∀ f ∈ s.frames, ∀ c, f.mayCall c → c.concerns own := by
  intro f hf c call
  obtain ⟨r, carries, mine⟩ := h f hf
  cases c with
  | getDraft flowId => trivial
  | getPublished flowId => trivial
  | ensureResult r' =>
    obtain rfl := Option.some.inj (carries.symm.trans call)
    exact mine
  | upsertResult r' =>
    obtain rfl := Option.some.inj (carries.symm.trans call)
    exact mine

end

/-! ### Crowds -/

variable {ι : Type}

/-- Sessions that share the stores. Each draws its ids from a source of its own, and not from that
of the stores. -/
structure Crowd (ι : Type) where
  sessions : ι → Session
  ids : ι → IdSource
  stores : Memory

namespace Crowd

/-- One of the sessions with the stores. -/
def view (c : Crowd ι) (i : ι) : Scene Memory := ⟨c.sessions i, c.stores.withIds (c.ids i)⟩

/-- The sessions are as each of them is alone, and own results of their own. -/
structure Alongside (own : ι → String → Prop) (base : Memory) (c : Crowd ι)
    (alone : ι → Scene Memory) : Prop where
  sessions : ∀ i, c.sessions i = (alone i).session
  owned : ∀ i, (c.sessions i).Owned (own i)
  beside : ∀ i, Memory.Beside (own i) base c.stores.results (c.view i).around (alone i).around
  unowned : ∀ r, (∀ i, ¬ own i r) → c.stores.results.get? r = none

variable {own : ι → String → Prop} {base : Memory} {c : Crowd ι} {alone : ι → Scene Memory}

/-- Live sessions that are about to start. -/
def start (flows : ι → Flow) (roots : ι → String) (ids : ι → IdSource) (stores : Memory) :
    Crowd ι :=
  ⟨fun i => .start (.root (flows i) (some (roots i))), ids, stores⟩

theorem Alongside.start (flows : ι → Flow) (roots : ι → String) (ids : ι → IdSource)
    {stores : Memory} (empty : stores.results = .empty) :
    Alongside (fun i => OwnResult (roots i) (ids i)) stores (Crowd.start flows roots ids stores)
      (Crowd.start flows roots ids stores).view where
  sessions _ := rfl
  owned i f hf := by
    rw [List.mem_singleton.mp hf]
    exact ⟨roots i, rfl, .inl rfl⟩
  beside i := by
    refine ⟨rfl, rfl, rfl, fun r => .inr, fun _ _ => rfl, fun _ _ => rfl, fun r _ => ?_⟩
    change stores.results.get? r = none
    rw [empty, Table.get?_empty]
  unowned r _ := by
    change stores.results.get? r = none
    rw [empty, Table.get?_empty]

/-- The shared records are those that the sessions leave alone, side by side. -/
theorem Alongside.records (h : c.Alongside own base alone)
    (apart : ∀ i j r, own i r → own j r → i = j) :
    (∀ r row, c.stores.results.get? r = some row ↔
        ∃ i, (alone i).around.results.get? r = some row) ∧
      ∀ i j r, (alone i).around.results.get? r ≠ none → (alone j).around.results.get? r ≠ none →
        i = j := by
  have owner {i : ι} {r : String} (there : (alone i).around.results.get? r ≠ none) : own i r := by
    by_contra other
    exact there ((h.beside i).absent r other)
  refine ⟨fun r row => ⟨fun there => ?_, ?_⟩, fun i j r hi hj => apart i j r (owner hi) (owner hj)⟩
  · by_cases owned : ∃ i, own i r
    · obtain ⟨i, mine⟩ := owned
      exact ⟨i, ((h.beside i).mine r mine).symm.trans there⟩
    · simp [h.unowned r (not_exists.mp owned)] at there
  · rintro ⟨i, there⟩
    exact ((h.beside i).mine r (owner (by simp [there]))).trans there

section

variable [DecidableEq ι]

/-- One of the sessions does a deed. -/
def perform (c : Crowd ι) (i : ι) (d : Deed) : Except Fault Response × Crowd ι :=
  let done := (c.view i).perform Memory.host d
  (done.1, ⟨Function.update c.sessions i done.2.session,
    Function.update c.ids i done.2.around.ids, done.2.around⟩)

/-- The sessions do some deeds, in order; answers whose deed it was, what came of it, and the
session behind it. -/
def play : Crowd ι → List (ι × Deed) → List (ι × Except Fault Response × Session) × Crowd ι
  | c, [] => ([], c)
  | c, (i, d) :: deeds =>
    let (response, next) := c.perform i d
    let (seen, last) := next.play deeds
    ((i, response, next.sessions i) :: seen, last)

/-- Of what is told about all sessions, what is about one of them. -/
def share (i : ι) (told : List (ι × α)) : List α :=
  told.filterMap fun t => if t.1 = i then some t.2 else none

@[simp] theorem share_nil (i : ι) : share i ([] : List (ι × α)) = [] := rfl

@[simp] theorem share_cons_self (i : ι) (a : α) (told : List (ι × α)) :
    share i ((i, a) :: told) = a :: share i told := by simp [share]

theorem share_cons_of_ne {i j : ι} (other : i ≠ j) (a : α) (told : List (ι × α)) :
    share j ((i, a) :: told) = share j told := by simp [share, other]

theorem share_append (i : ι) (told more : List (ι × α)) :
    share i (told ++ more) = share i told ++ share i more := List.filterMap_append ..

/-- A session goes on as it does alone, and the others stay as they are. -/
theorem Alongside.perform (h : c.Alongside own base alone) (steady : base.outage.Steady)
    (apart : ∀ i j r, own i r → own j r → i = j) (i : ι) (d : Deed) :
    (c.perform i d).1 = ((alone i).perform Memory.host d).1 ∧
      (c.perform i d).2.Alongside own base
        (Function.update alone i ((alone i).perform Memory.host d).2) := by
  obtain ⟨response, session, beside, became⟩ :=
    Scene.perform_related (beside_respects steady) (h.sessions i) (h.owned i).concerns d
      (h.beside i)
  have owned := (h.owned i).became became
  refine ⟨response, ?_⟩
  unfold Crowd.perform
  generalize (c.view i).perform Memory.host d = here at session beside owned ⊢
  refine ⟨fun j => ?_, fun j => ?_, fun j => ?_, fun r none => ?_⟩
  · by_cases same : j = i
    · subst same
      simpa using session
    · simpa [same] using h.sessions j
  · by_cases same : j = i
    · subst same
      simpa using owned
    · simpa [same] using h.owned j
  · -- to all others the deed has only changed records that are not theirs
    by_cases same : j = i
    · subst same
      simpa [view] using beside.settled
    · have old := (h.beside j).other rfl beside fun r hj hi => same (apart j i r hj hi)
      simpa [view, same] using old
  · exact (beside.theirs r (none i)).trans (h.unowned r none)

/-- Every session sees what it sees alone. -/
theorem Alongside.play (h : c.Alongside own base alone) (steady : base.outage.Steady)
    (apart : ∀ i j r, own i r → own j r → i = j) (deeds : List (ι × Deed)) :
    (∀ i, share i (c.play deeds).1 = ((alone i).play Memory.host (share i deeds)).1) ∧
      (c.play deeds).2.Alongside own base
        fun i => ((alone i).play Memory.host (share i deeds)).2 := by
  induction deeds generalizing c alone with
  | nil => exact ⟨fun i => rfl, h⟩
  | cons t deeds ih =>
    obtain ⟨i, d⟩ := t
    obtain ⟨response, next⟩ := h.perform steady apart i d
    obtain ⟨seen, last⟩ := ih next
    have session : (c.perform i d).2.sessions i = ((alone i).perform Memory.host d).2.session := by
      simpa using next.sessions i
    -- the deed comes first among those of its own session, and is none of the others'
    have first (j : ι) : (alone j).play Memory.host (share j ((i, d) :: deeds)) =
        (share j [(i, (c.perform i d).1, (c.perform i d).2.sessions i)] ++
            ((Function.update alone i ((alone i).perform Memory.host d).2 j).play Memory.host
              (share j deeds)).1,
          ((Function.update alone i ((alone i).perform Memory.host d).2 j).play Memory.host
              (share j deeds)).2) := by
      by_cases same : i = j
      · subst same
        simp [Scene.play, response, session]
      · simp [share_cons_of_ne same, Function.update_of_ne (Ne.symm same)]
    refine ⟨fun j => ?_, ?_⟩
    · rw [first j, ← seen j, ← share_append]
      rfl
    · simp only [first]
      exact last

end

end Crowd

/-- Sessions that share the stores are independent. They start live, without any record; no result
id of one can be that of another. Then, however their deeds are interleaved, each of them meets the
responses and the states that it meets with the same deeds alone, and the records that they leave
are the disjoint union of those that they leave alone. -/
theorem sessions_independent [DecidableEq ι] (flows : ι → Flow) (roots : ι → String)
    (ids : ι → IdSource) (stores : Memory) (empty : stores.results = .empty)
    (steady : stores.outage.Steady)
    (apart : ∀ i j r, OwnResult (roots i) (ids i) r → OwnResult (roots j) (ids j) r → i = j)
    (deeds : List (ι × Deed)) :
    let start := Crowd.start flows roots ids stores
    let together := start.play deeds
    let alone := fun i => (start.view i).play Memory.host (Crowd.share i deeds)
    (∀ i, Crowd.share i together.1 = (alone i).1 ∧
        together.2.sessions i = (alone i).2.session ∧
        together.2.ids i = (alone i).2.around.ids) ∧
      (∀ r row, together.2.stores.results.get? r = some row ↔
        ∃ i, (alone i).2.around.results.get? r = some row) ∧
      ∀ i j r, (alone i).2.around.results.get? r ≠ none →
        (alone j).2.around.results.get? r ≠ none → i = j := by
  obtain ⟨seen, last⟩ := (Crowd.Alongside.start flows roots ids empty).play steady apart deeds
  exact ⟨fun i => ⟨seen i, last.sessions i, (last.beside i).ids⟩, last.records apart⟩

namespace Sample

/-- Two sources of ids, told by their letters. -/
def sources (i : Bool) : IdSource :=
  ⟨fun n => String.ofList (List.replicate n (if i then 'i' else 'j')), 1⟩

/-- The results that two sessions start with. -/
def roots (i : Bool) : String := if i then "r" else "s"

/-- What the results of a session may start with. -/
def letters (i : Bool) : List (Option Char) :=
  if i then [some 'r', some 'i'] else [some 's', some 'j']

theorem own_letter {i : Bool} {r : String} (own : OwnResult (roots i) (sources i) r) :
    r.toList.head? ∈ letters i := by
  rcases own with rfl | ⟨n, positive, rfl⟩
  · cases i <;> decide
  · obtain ⟨k, rfl⟩ : ∃ k, n = k + 1 := ⟨n - 1, (Nat.sub_add_cancel positive).symm⟩
    cases i <;> simp [letters, sources, List.replicate_succ]

theorem apart (i j : Bool) (r : String) (mine : OwnResult (roots i) (sources i) r)
    (yours : OwnResult (roots j) (sources j) r) : i = j := by
  have others : ∀ i j, i ≠ j → ∀ letter ∈ letters i, letter ∉ letters j := by decide
  by_contra different
  exact others i j different _ (own_letter mine) (own_letter yours)

/-- Both sessions make a fork, one joins the survey as well, and both return. -/
def mingled : List (Bool × Deed) :=
  [(true, .execute .default fork), (false, .execute .default join),
    (false, .editAnswers (· ++ [⟨"age", "36", none⟩])), (false, .execute .default fork),
    (true, .editAnswers (· ++ [⟨"ok", "yes", none⟩])), (true, .next none), (false, .next none)]

end Sample

/-- Two sessions of one flow, mingled: the four records are those of the two sessions alone. -/
theorem sessions_independent_sample :
    let start := Crowd.start (fun _ => Sample.flow) Sample.roots Sample.sources Sample.memory
    let alone := fun i => (start.view i).play Memory.host (Crowd.share i Sample.mingled)
    (start.play Sample.mingled).2.stores.results.entries.map (·.1) = ["i", "jjj", "r", "s"] ∧
      (∀ i, Crowd.share i (start.play Sample.mingled).1 = (alone i).1) ∧
      ∀ r row, (start.play Sample.mingled).2.stores.results.get? r = some row ↔
        ∃ i, (alone i).2.around.results.get? r = some row := by
  have h := sessions_independent (fun _ => Sample.flow) Sample.roots Sample.sources Sample.memory
    rfl (fun _ _ _ => rfl) Sample.apart Sample.mingled
  exact ⟨by decide +kernel, fun i => (h.1 i).1, h.2.1⟩

end Dialogue
