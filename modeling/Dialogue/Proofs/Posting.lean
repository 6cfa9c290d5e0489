import Mathlib.Data.List.Dedup
import Dialogue.Proofs.Moves

/-!
# What a ledger tells of its history

The record under an id is the one of the last write that replaced it, or else the one of the first
write that created it. What is written of a flow are its variables with a value. The records are
listed by increasing id, one for each id that was ever written (`ledger_tells_history`).

What one write does to a record is said by two lemmas, one for writes under other ids and one for
writes that only create; the order of the entries is an invariant of every write
(`Ledger.Listed.post`).
-/

namespace Dialogue

/-- A write: one that creates a record unless there is one, or one that replaces it. -/
inductive Posting where
  | ensure (w : ResultWrite)
  | upsert (w : ResultWrite)

/-- What is written. -/
def Posting.write : Posting → ResultWrite
  | .ensure w => w
  | .upsert w => w

/-- Posts a write. -/
def Ledger.post (l : Ledger) : Posting → Ledger
  | .ensure w => l.ensure w
  | .upsert w => l.upsert w

/-- Posts some writes in order. -/
def Ledger.posted (l : Ledger) (ps : List Posting) : Ledger := ps.foldl post l

namespace Memory

/-- Makes the request for a write. -/
def post (m : Memory) : Posting → Memory
  | .ensure w => ((host.ensure w).run m).2
  | .upsert w => ((host.upsert w).run m).2

/-- Makes the requests for some writes in order. -/
def posted (m : Memory) (ps : List Posting) : Memory := ps.foldl post m

end Memory

/-- A write replaces the record under its id, and no later one does. -/
def LastUpsert (ps : List Posting) (w : ResultWrite) : Prop :=
  ∃ before after, ps = before ++ .upsert w :: after ∧ ∀ w', .upsert w' ∈ after → w'.id ≠ w.id

/-- A write creates the record under its id, before any other one, and none replaces it. -/
def FirstEnsure (ps : List Posting) (w : ResultWrite) : Prop :=
  ∃ before after, ps = before ++ .ensure w :: after ∧ (∀ w', .ensure w' ∈ before → w'.id ≠ w.id) ∧
    ∀ w', .upsert w' ∈ ps → w'.id ≠ w.id

/-- The write that some writes leave on record under its id. -/
def OnRecord (ps : List Posting) (w : ResultWrite) : Prop := LastUpsert ps w ∨ FirstEnsure ps w

/-- A row says what was written: the ids, the flags, and those of the flow's variables, in their
order, whose value is not null. -/
structure ResultRow.Tells (row : ResultRow) (w : ResultWrite) : Prop where
  id : row.id = w.id
  flowId : row.flowId = w.flow.id
  hasStarted : row.hasStarted = w.hasStarted
  isCompleted : row.isCompleted = w.isCompleted
  vars : ∃ valued : Variable → Bool, row.vars = w.flow.vars.filter valued ∧
    ∀ v, valued v = true ↔ ∃ j, v.value = some j ∧ j ≠ .null

/-! ### One write -/

namespace Ledger

/-- The rows of a ledger stand under their ids, in increasing order. -/
structure Listed (l : Ledger) : Prop where
  ascending : Table.Ascending l.entries
  named : ∀ e ∈ l.entries, e.2.id = e.1

section

variable {l : Ledger} {p : Posting} {ps : List Posting} {w : ResultWrite} {r : String}
  {row : ResultRow}

theorem listed_empty : Listed .empty := ⟨.nil, nofun⟩

theorem Listed.upsert (h : l.Listed) (w : ResultWrite) : (l.upsert w).Listed where
  ascending := h.ascending.place w.id w.row
  named e he := by
    rcases Table.mem_place he with rfl | he
    · rfl
    · exact h.named e he

/-- A write that only creates leaves the ledger as it is, or does what one that replaces does. -/
theorem ensure_eq (l : Ledger) (w : ResultWrite) :
    l.ensure w = if l.get? w.id = none then l.upsert w else l := by
  unfold ensure upsert Table.putNew
  cases l.get? w.id <;> simp

theorem Listed.post (h : l.Listed) (p : Posting) : (l.post p).Listed := by
  cases p with
  | ensure w =>
    rw [Ledger.post, ensure_eq]
    split
    · exact h.upsert w
    · exact h
  | upsert w => exact h.upsert w

theorem Listed.posted (h : l.Listed) (ps : List Posting) : (l.posted ps).Listed := by
  induction ps generalizing l with
  | nil => exact h
  | cons p ps ih => exact ih (h.post p)

/-- A write does not touch the records under other ids. -/
theorem get?_post_of_ne (other : p.write.id ≠ r) : (l.post p).get? r = l.get? r := by
  cases p with
  | ensure w => exact l.get?_ensure_of_ne other
  | upsert w => exact l.get?_upsert_of_ne other

/-- A record stays until it is replaced. -/
theorem get?_post_kept (here : l.get? r = some row) (kept : ∀ w, p = .upsert w → w.id ≠ r) :
    (l.post p).get? r = some row := by
  cases p with
  | ensure w =>
    rw [post, ensure_eq]
    split
    · rename_i missing
      have other : w.id ≠ r := fun same => by
        rw [same, here] at missing
        cases missing
      rw [l.get?_upsert_of_ne other, here]
    · exact here
  | upsert w => rw [post, l.get?_upsert_of_ne (kept w rfl), here]

/-- A write that only creates changes nothing where there is a record. -/
theorem ensure_of_recorded (here : l.get? w.id ≠ none) : l.ensure w = l := by
  rw [ensure_eq, if_neg here]

/-- To write again what is on record changes nothing. -/
theorem Listed.upsert_of_recorded (h : l.Listed) (here : l.get? w.id = some w.row) :
    l.upsert w = l := congrArg Table.mk (h.ascending.place_of_lookup here)

/-! ### Histories -/

theorem posted_cons (l : Ledger) (p : Posting) (ps : List Posting) :
    l.posted (p :: ps) = (l.post p).posted ps := rfl

theorem posted_append (l : Ledger) (a b : List Posting) :
    l.posted (a ++ b) = (l.posted a).posted b := List.foldl_append ..

theorem get?_posted_of_ne (others : ∀ p ∈ ps, p.write.id ≠ r) :
    (l.posted ps).get? r = l.get? r := by
  induction ps generalizing l with
  | nil => rfl
  | cons p ps ih =>
    obtain ⟨other, others⟩ := List.forall_mem_cons.mp others
    exact (ih others).trans (get?_post_of_ne other)

theorem get?_posted_kept (here : l.get? r = some row)
    (kept : ∀ w, .upsert w ∈ ps → w.id ≠ r) : (l.posted ps).get? r = some row := by
  induction ps generalizing l with
  | nil => exact here
  | cons p ps ih =>
    have now := get?_post_kept here fun w same => kept w (same ▸ List.mem_cons_self)
    exact ih now fun w hw => kept w (List.mem_cons_of_mem _ hw)

/-- The last write that replaces a record is found. -/
theorem get?_of_lastUpsert (h : LastUpsert ps w) : (l.posted ps).get? w.id = some w.row := by
  obtain ⟨before, after, rfl, last⟩ := h
  rw [posted_append, posted_cons]
  exact get?_posted_kept (get?_upsert_self _ w) last

/-- If none replaces it, the first write that creates a record is found. -/
theorem get?_of_firstEnsure (h : FirstEnsure ps w) (fresh : l.get? w.id = none) :
    (l.posted ps).get? w.id = some w.row := by
  obtain ⟨before, after, rfl, first, never⟩ := h
  have others : ∀ p ∈ before, p.write.id ≠ w.id := by
    intro p hp
    cases p with
    | ensure w' => exact first w' hp
    | upsert w' => exact never w' (List.mem_append_left _ hp)
  have missing : (l.posted before).get? w.id = none := (get?_posted_of_ne others).trans fresh
  have created : ((l.posted before).ensure w).get? w.id = some w.row := by
    rw [get?_ensure_self, missing, Option.getD_none]
  rw [posted_append, posted_cons]
  exact get?_posted_kept created fun w' hw =>
    never w' (List.mem_append_right _ (List.mem_cons_of_mem _ hw))

end

end Ledger

section

variable {ps : List Posting} {p : Posting} {w : ResultWrite} {r : String}

/-- A write stays on record until it is replaced. -/
theorem OnRecord.concat (h : OnRecord ps w) (kept : ∀ w', p = .upsert w' → w'.id ≠ w.id) :
    OnRecord (ps ++ [p]) w := by
  rcases h with ⟨before, after, rfl, last⟩ | ⟨before, after, rfl, first, never⟩
  · refine .inl ⟨before, after ++ [p], by simp, fun w' hw => ?_⟩
    rcases List.mem_append.mp hw with hw | hw
    · exact last w' hw
    · exact kept w' (List.mem_singleton.mp hw).symm
  · refine .inr ⟨before, after ++ [p], by simp, first, fun w' hw => ?_⟩
    rcases List.mem_append.mp hw with hw | hw
    · exact never w' hw
    · exact kept w' (List.mem_singleton.mp hw).symm

/-- Some write is on record under each id that was ever written. -/
theorem exists_onRecord (h : ∃ p ∈ ps, p.write.id = r) : ∃ w, OnRecord ps w ∧ w.id = r := by
  induction ps using List.reverseRecOn with
  | nil => simp at h
  | append_singleton ps p ih =>
    by_cases replaces : ∃ w, p = .upsert w ∧ w.id = r
    · obtain ⟨w, rfl, id⟩ := replaces
      exact ⟨w, .inl ⟨ps, [], rfl, fun _ none => absurd none List.not_mem_nil⟩, id⟩
    by_cases before : ∃ q ∈ ps, q.write.id = r
    · obtain ⟨w, recorded, rfl⟩ := ih before
      exact ⟨w, recorded.concat fun w' same id => replaces ⟨w', same, id⟩, rfl⟩
    · -- nothing has been written under the id yet, so the last write creates its record
      obtain ⟨q, hq, rfl⟩ := h
      have last : q = p := by
        rcases List.mem_append.mp hq with hq | hq
        · exact absurd ⟨q, hq, rfl⟩ before
        · exact List.mem_singleton.mp hq
      subst last
      cases q with
      | upsert w => exact absurd ⟨w, rfl, rfl⟩ replaces
      | ensure w =>
        refine ⟨w, .inr ⟨ps, [], rfl, fun w' hw id => before ⟨_, hw, id⟩, fun w' hw id => ?_⟩, rfl⟩
        rcases List.mem_append.mp hw with hw | hw
        · exact before ⟨_, hw, id⟩
        · cases List.mem_singleton.mp hw

theorem OnRecord.written (h : OnRecord ps w) : ∃ p ∈ ps, p.write.id = w.id := by
  rcases h with ⟨before, after, rfl, -⟩ | ⟨before, after, rfl, -⟩
  · exact ⟨_, List.mem_append_right _ List.mem_cons_self, rfl⟩
  · exact ⟨_, List.mem_append_right _ List.mem_cons_self, rfl⟩

theorem Ledger.get?_of_onRecord (h : OnRecord ps w) :
    (Ledger.posted .empty ps).get? w.id = some w.row := by
  rcases h with last | first
  · exact get?_of_lastUpsert last
  · exact get?_of_firstEnsure first rfl

/-- Records are found under the ids that were written, and no others. -/
theorem Ledger.get?_posted_eq_none :
    (Ledger.posted .empty ps).get? r = none ↔ ∀ p ∈ ps, p.write.id ≠ r := by
  refine ⟨fun missing p hp id => ?_, get?_posted_of_ne⟩
  obtain ⟨w, recorded, rfl⟩ := exists_onRecord ⟨p, hp, id⟩
  rw [get?_of_onRecord recorded] at missing
  cases missing

end

/-! ### The rows of a ledger -/

namespace Ledger.Listed

variable {l : Ledger} {row : ResultRow} {r : String}

theorem ids_eq (h : l.Listed) : l.values.map (·.id) = l.entries.map (·.1) := by
  unfold Table.values
  rw [List.map_map]
  exact List.map_congr_left h.named

theorem ids_ascending (h : l.Listed) : (l.values.map (·.id)).Pairwise (· < ·) := by
  rw [h.ids_eq]
  exact List.pairwise_map.mpr h.ascending

theorem mem_values (h : l.Listed) : row ∈ l.values ↔ l.get? row.id = some row := by
  refine Iff.trans ?_ h.ascending.lookup_eq_some.symm
  constructor
  · intro there
    obtain ⟨e, he, rfl⟩ := List.mem_map.mp there
    rw [h.named e he]
    exact he
  · exact fun there => List.mem_map.mpr ⟨_, there, rfl⟩

theorem mem_ids (h : l.Listed) : r ∈ l.values.map (·.id) ↔ l.get? r ≠ none := by
  rw [Option.ne_none_iff_exists']
  constructor
  · intro there
    obtain ⟨row, hrow, rfl⟩ := List.mem_map.mp there
    exact ⟨row, h.mem_values.mp hrow⟩
  · rintro ⟨row, here⟩
    have there := h.ascending.lookup_eq_some.mp here
    rw [h.ids_eq]
    exact List.mem_map_of_mem there

/-- There are as many rows as ids under which there is a record. -/
theorem size_eq (h : l.Listed) {ids : List String} (all : ∀ r, l.get? r ≠ none ↔ r ∈ ids) :
    l.size = ids.dedup.length := by
  have same : (l.values.map (·.id)).Perm ids.dedup := by
    have once : (l.values.map (·.id)).Nodup := h.ids_ascending.imp ne_of_lt
    refine (List.perm_ext_iff_of_nodup once ids.nodup_dedup).mpr fun r => ?_
    rw [h.mem_ids, all, List.mem_dedup]
  rw [← same.length_eq, List.length_map, Table.values, List.length_map]
  rfl

end Ledger.Listed

/-! ### Requests -/

namespace Memory

variable {m : Memory}

theorem post_outage (m : Memory) (p : Posting) : (m.post p).outage = m.outage := by
  cases p with
  | ensure w =>
    rw [post, host, answer_run]
    cases m.outage m.journal (.ensureResult w.id) <;> rfl
  | upsert w =>
    rw [post, host, answer_run]
    cases m.outage m.journal (.upsertResult w.id) <;> rfl

theorem post_results (healthy : m.outage = .none) (p : Posting) :
    (m.post p).results = Ledger.post m.results p := by
  cases p with
  | ensure w =>
    rw [post, host, answer_run, healthy]
    rfl
  | upsert w =>
    rw [post, host, answer_run, healthy]
    rfl

/-- Without an outage the ledger becomes what the writes make of it. -/
theorem posted_results (healthy : m.outage = .none) (ps : List Posting) :
    (m.posted ps).results = Ledger.posted m.results ps := by
  induction ps generalizing m with
  | nil => rfl
  | cons p ps ih =>
    change ((m.post p).posted ps).results = _
    rw [ih ((m.post_outage p).trans healthy), post_results healthy]
    rfl

end Memory

theorem ResultWrite.row_tells (w : ResultWrite) : w.row.Tells w where
  id := rfl
  flowId := rfl
  hasStarted := rfl
  isCompleted := rfl
  vars := ⟨Variable.hasValue, rfl, fun _ => Variable.hasValue_iff⟩

/-- What a fresh ledger tells behind any writes that were requested of it, in whatever order and
under whatever ids. Under an id stands what the last write under it that replaces has written, or
what the first one that creates has if none replaces, and nothing if there is none: the ids and the
flags of that write, and the variables of its flow that have a value. There is one row for each id
that was ever written, in increasing order of the ids, and their number is told. A write that only
creates changes nothing where there is a row, and neither does the last write that replaces a row
when it is made again. -/
theorem ledger_tells_history (m : Memory) (healthy : m.outage = .none)
    (fresh : m.results = .empty) (ps : List Posting) {l : Ledger}
    (posted : (m.posted ps).results = l) :
    (∀ w, OnRecord ps w → ∃ row, l.get? w.id = some row ∧ row.Tells w) ∧
    (∀ r, (∃ w, OnRecord ps w ∧ w.id = r) ↔ ∃ p ∈ ps, p.write.id = r) ∧
    (∀ r, l.get? r = none ↔ ∀ p ∈ ps, p.write.id ≠ r) ∧
    (l.values.map (·.id)).Pairwise (· < ·) ∧
    (∀ row, row ∈ l.values ↔ l.get? row.id = some row) ∧
    (∀ r, r ∈ l.values.map (·.id) ↔ ∃ p ∈ ps, p.write.id = r) ∧
    l.size = (ps.map (·.write.id)).dedup.length ∧
    (∀ w, l.get? w.id ≠ none → (m.posted (ps ++ [.ensure w])).results = l) ∧
    ∀ w, LastUpsert ps w → (m.posted (ps ++ [.upsert w])).results = l := by
  have behind (qs : List Posting) : (m.posted qs).results = Ledger.posted .empty qs := by
    rw [Memory.posted_results healthy, fresh]
  rw [behind] at posted
  subst posted
  have listed := Ledger.listed_empty.posted ps
  have written (r : String) :
      (Ledger.posted .empty ps).get? r ≠ none ↔ ∃ p ∈ ps, p.write.id = r := by
    rw [Ne, Ledger.get?_posted_eq_none]
    simp
  refine ⟨fun w recorded => ⟨w.row, Ledger.get?_of_onRecord recorded, w.row_tells⟩, fun r => ?_,
    fun r => Ledger.get?_posted_eq_none, listed.ids_ascending, fun row => listed.mem_values,
    fun r => listed.mem_ids.trans (written r), listed.size_eq fun r => ?_, fun w here => ?_,
    fun w last => ?_⟩
  · exact ⟨fun ⟨w, recorded, id⟩ => id ▸ recorded.written, exists_onRecord⟩
  · rw [written, List.mem_map]
  · rw [behind, Ledger.posted_append]
    exact Ledger.ensure_of_recorded here
  · rw [behind, Ledger.posted_append]
    exact listed.upsert_of_recorded (Ledger.get?_of_lastUpsert last)

namespace Sample

/-- A result is opened, another one is closed, and the first is opened again. -/
def postings : List Posting :=
  [.ensure ⟨"r", flow, false, false⟩, .upsert ⟨"q", flow, true, true⟩,
    .ensure ⟨"r", flow, true, false⟩]

end Sample

/-- Two results are on record, the one that was opened twice as it was opened first. -/
theorem ledger_tells_history_sample :
    ∃ row, ((Memory.empty Sample.ids).posted Sample.postings).results.get? "r" = some row ∧
      row.Tells ⟨"r", Sample.flow, false, false⟩ ∧
      ((Memory.empty Sample.ids).posted Sample.postings).results.size = 2 := by
  obtain ⟨tells, -, -, -, -, -, size, -⟩ :=
    ledger_tells_history (.empty Sample.ids) rfl rfl Sample.postings rfl
  have never : ∀ w', .upsert w' ∈ Sample.postings → w'.id ≠ "r" := by
    intro w' hw
    obtain rfl : w' = ⟨"q", Sample.flow, true, true⟩ := by simpa [Sample.postings] using hw
    decide
  obtain ⟨row, here, tells⟩ := tells ⟨"r", Sample.flow, false, false⟩
    (.inr ⟨[], Sample.postings.drop 1, rfl, fun _ none => absurd none List.not_mem_nil, never⟩)
  exact ⟨row, here, tells, size⟩

end Dialogue
