import Dialogue.Proofs.Deciding

/-!
# Repeating a turn that failed

A return that fails at one of its writes has made those before it. Once the stores have recovered it
makes all of them again, and this comes to the same as to make them once: writes that are made again
later leave no trace (`upsertAll_covered`), also where several are about one result. A link that
fails has written nothing and drawn no id. So a turn that failed is repeated as if nothing had
happened (`faulted_turn_repeats`); only the journal tells.
-/

namespace Dialogue

/-! ### Writes that are made again -/

namespace Ledger

/-- Makes some writes in order. -/
def upsertAll (l : Ledger) (writes : List ResultWrite) : Ledger := writes.foldl upsert l

theorem upsertAll_append (l : Ledger) (a b : List ResultWrite) :
    l.upsertAll (a ++ b) = (l.upsertAll a).upsertAll b := List.foldl_append ..

/-- A write leaves no trace if there is another under its id later. -/
theorem upsertAll_upsert {v : ResultWrite} : ∀ {writes : List ResultWrite} (l : Ledger),
    v.id ∈ writes.map (·.id) → (l.upsert v).upsertAll writes = l.upsertAll writes
  | [], _, h => by simp at h
  | w :: writes, l, h => by
    change ((l.upsert v).upsert w).upsertAll writes = (l.upsert w).upsertAll writes
    by_cases same : v.id = w.id
    · have replaced : (l.upsert v).upsert w = l.upsert w := by
        unfold upsert
        rw [same, Table.put_put]
      rw [replaced]
    · have later : v.id ∈ writes.map (·.id) := by
        simpa [same] using h
      have swapped : (l.upsert v).upsert w = (l.upsert w).upsert v :=
        Table.put_comm l (Ne.symm same) w.row v.row
      rw [swapped, upsertAll_upsert _ later]

/-- Writes leave no trace if there are others under their ids later. -/
theorem upsertAll_covered (l : Ledger) {done writes : List ResultWrite}
    (covered : ∀ v ∈ done, v.id ∈ writes.map (·.id)) :
    (l.upsertAll done).upsertAll writes = l.upsertAll writes := by
  induction done using List.reverseRecOn with
  | nil => rfl
  | append_singleton done v ih =>
    rw [upsertAll_append]
    change ((l.upsertAll done).upsert v).upsertAll writes = _
    rw [upsertAll_upsert _ (covered v (by simp))]
    exact ih fun u hu => covered u (List.mem_append_left _ hu)

/-- To make some writes, and then all of them, is to make all of them. -/
theorem upsertAll_again (l : Ledger) (done rest : List ResultWrite) :
    (l.upsertAll done).upsertAll (done ++ rest) = l.upsertAll (done ++ rest) :=
  l.upsertAll_covered fun _ hv => List.mem_map_of_mem (List.mem_append_left _ hv)

end Ledger

/-! ### Recovered stores -/

namespace Memory

/-- The stores with another journal. -/
def withJournal (m : Memory) (calls : List Call) : Memory := { m with journal := calls }

/-- The stores once no request fails any more. -/
def recovered (m : Memory) : Memory := { m with outage := .none }

@[simp] theorem recovered_outage (m : Memory) : m.recovered.outage = .none := rfl

theorem note_withJournal (m : Memory) (calls more : List Call) :
    (m.withJournal calls).note more = (m.note more).withJournal (calls ++ more) := rfl

/-- Some writes and then all of them leave the same stores as all of them, but for the journal. -/
theorem wrote_again (m : Memory) (done rest : List ResultWrite) (calls : List Call) :
    ∃ j, ((m.wrote done).withJournal calls).wrote (done ++ rest) =
      (m.wrote (done ++ rest)).withJournal j := by
  have again : (m.results.upsertAll done).upsertAll (done ++ rest) =
      m.results.upsertAll (done ++ rest) := m.results.upsertAll_again done rest
  unfold Ledger.upsertAll at again
  simp only [wrote, withJournal, again]
  exact ⟨_, rfl⟩

theorem opened_withJournal (m : Memory) (current : Frame) (calls : List Call) :
    ∃ j, (m.withJournal calls).opened current = (m.opened current).withJournal j := by
  unfold opened
  cases current.opening? with
  | none => exact ⟨_, rfl⟩
  | some w => exact ⟨_, rfl⟩

end Memory

/-- A return that fails has made some of its writes. -/
theorem next_fails {m m' : Memory} {top : Frame} {beneath : List Frame} {extra : Entries}
    {edgeId : Option String} {f : Fault}
    (ran : exec (Memory.host.next ⟨top :: beneath, extra⟩ edgeId) m = (.error f, m')) :
    ∃ done rest call, (unwind top beneath edgeId).writes = done ++ rest ∧
      m' = (m.wrote done).note [call] := by
  rw [exec_next] at ran
  rcases Memory.exec_closeAll (unwind top beneath edgeId).popped m with
    h | ⟨done, w, rest, fault, due, -, h⟩
  · simp [h] at ran
  · rw [h] at ran
    exact ⟨done, w :: rest, _, due, (Prod.mk.inj ran).2.symm⟩

/-- Without an outage what was decided is executed whatever the journal says. -/
theorem exec_take_withJournal (config : Config) (current : Frame) (beneath : List Frame)
    (extra : Entries) (b : Block) (c : Course) {m : Memory} (healthy : m.outage = .none)
    (calls : List Call) :
    ∃ j, exec (Memory.host.take config ⟨current :: beneath, extra⟩ current beneath b c)
        (m.withJournal calls) =
      ((exec (Memory.host.take config ⟨current :: beneath, extra⟩ current beneath b c) m).1,
        (exec (Memory.host.take config ⟨current :: beneath, extra⟩ current beneath b c) m).2
          |>.withJournal j) := by
  cases c with
  | refuse r => exact ⟨_, rfl⟩
  | again groupId =>
    rw [Memory.exec_take_again, Memory.exec_take_again]
    exact ⟨_, rfl⟩
  | other options linked groupId =>
    have healthy' : (m.withJournal calls).outage = .none := healthy
    obtain ⟨j, opened⟩ := m.opened_withJournal current calls
    rw [Memory.exec_take_other, Memory.exec_take_other, Memory.exec_ensureStarted_healthy healthy,
      Memory.exec_ensureStarted_healthy healthy', opened]
    exact ⟨j, rfl⟩

/-- Without an outage a link does not look at the journal. -/
theorem exec_link_withJournal (config : Config) (s : Session) (b : Block) {m : Memory}
    (healthy : m.outage = .none) (calls : List Call) :
    ∃ j, exec (Memory.host.link config s b) (m.withJournal calls) =
      ((exec (Memory.host.link config s b) m).1,
        (exec (Memory.host.link config s b) m).2.withJournal j) := by
  obtain ⟨frames, extra⟩ := s
  cases frames with
  | nil => exact ⟨_, rfl⟩
  | cons current beneath =>
    cases wish : current.wish config (beneath.length + 1) b with
    | refuse r =>
      rw [exec_link_refuse wish, exec_link_refuse wish]
      exact ⟨_, rfl⟩
    | again groupId =>
      rw [exec_link_again wish, exec_link_again wish]
      exact ⟨_, rfl⟩
    | visit options flowId =>
      have healthy' : (m.withJournal calls).outage = .none := healthy
      have fetched : (m.note [Memory.reading current.isPreview flowId]).outage = .none := healthy
      have same : (m.withJournal calls).found current.isPreview flowId =
          m.found current.isPreview flowId := rfl
      rw [exec_link_visit wish, exec_link_visit wish, healthy, healthy', same]
      simp only [Outage.none]
      cases m.found current.isPreview flowId with
      | error f => exact ⟨_, rfl⟩
      | ok definition =>
        rw [proceed_ok, proceed_ok, Memory.note_withJournal]
        exact exec_take_withJournal config current beneath extra b _ fetched _

/-- A turn that failed can be repeated as if nothing had happened. A return that fails at any of its
writes answers, once the stores have recovered, what it would have answered at first, and leaves the
same records. A link that fails leaves records and ids alone, and once the stores have recovered it
answers what it would have answered at first, with the same ids. -/
theorem faulted_turn_repeats (config : Config) (s : Session) (m m' : Memory) :
    (∀ edgeId fault, exec (Memory.host.next s edgeId) m = (.error (.store fault), m') →
      ∃ n w j, exec (Memory.host.next s edgeId) m.recovered = (.ok n, w) ∧
        exec (Memory.host.next s edgeId) m'.recovered = (.ok n, w.withJournal j)) ∧
    ∀ b f, exec (Memory.host.link config s b) m = (.error f, m') →
      m'.results = m.results ∧ m'.ids = m.ids ∧
      ∃ r w j, exec (Memory.host.link config s b) m.recovered = (r, w) ∧
        exec (Memory.host.link config s b) m'.recovered = (r, w.withJournal j) := by
  obtain ⟨frames, extra⟩ := s
  cases frames with
  | nil =>
    refine ⟨fun edgeId fault ran => ?_, fun b f ran => ?_⟩
    · cases ran
    · cases ran
      exact ⟨rfl, rfl, _, _, _, rfl, rfl⟩
  | cons top beneath =>
    refine ⟨fun edgeId fault ran => ?_, fun b f ran => ?_⟩
    · obtain ⟨done, rest, call, due, rfl⟩ := next_fails ran
      have stores : ((m.wrote done).note [call]).recovered =
          (m.recovered.wrote done).withJournal ((m.wrote done).journal ++ [call]) := rfl
      obtain ⟨j, again⟩ := m.recovered.wrote_again done rest ((m.wrote done).journal ++ [call])
      refine ⟨_, _, j, Memory.exec_next_healthy rfl top beneath extra edgeId, ?_⟩
      rw [Memory.exec_next_healthy rfl, due, stores, again]
    · have unpushed : ¬ Pushes (.error f) := by
        rintro ⟨reply, s', answer, -⟩
        cases answer
      obtain ⟨-, calls, rfl, -⟩ := link_without_push ran unpushed
      obtain ⟨j, again⟩ := exec_link_withJournal config ⟨top :: beneath, extra⟩ b
        m.recovered_outage (m.journal ++ calls)
      exact ⟨rfl, rfl, _, _, j, rfl, again⟩

namespace Sample

/-- Two audits above the flow. -/
def audits : Session :=
  ⟨[⟨{ flow with id := "second" }, some "b", some "out", [], false⟩,
    ⟨{ flow with id := "first" }, some "a", none, [], false⟩, .root flow (some "r")], []⟩

/-- Stores that cannot record some result. -/
def failing (resultId : String) : Memory :=
  { memory with outage := .ofResults (.unavailable "db") (some resultId) }

end Sample

/-- A return that closes one audit and fails at the next, and a link that cannot record the result
of its caller, are both repeated. -/
theorem faulted_turn_repeats_sample :
    (∃ f m', exec (Memory.host.next Sample.audits none) (Sample.failing "a") = (.error f, m') ∧
      ∃ n w j, exec (Memory.host.next Sample.audits none) (Sample.failing "a").recovered =
          (.ok n, w) ∧
        exec (Memory.host.next Sample.audits none) m'.recovered = (.ok n, w.withJournal j)) ∧
    ∃ f m', exec (Memory.host.link .default ⟨[Sample.first], []⟩ Sample.fork) (Sample.failing "r") =
        (.error f, m') ∧
      ∃ r w j, exec (Memory.host.link .default ⟨[Sample.first], []⟩ Sample.fork)
          (Sample.failing "r").recovered = (r, w) ∧
        exec (Memory.host.link .default ⟨[Sample.first], []⟩ Sample.fork) m'.recovered =
          (r, w.withJournal j) :=
  ⟨⟨_, _, rfl, (faulted_turn_repeats .default Sample.audits (Sample.failing "a") _).1 none
      (.unavailable "db") rfl⟩,
    ⟨_, _, rfl, ((faulted_turn_repeats .default ⟨[Sample.first], []⟩ (Sample.failing "r") _).2
      Sample.fork (.store (.unavailable "db")) rfl).2.2⟩⟩

end Dialogue
