import Dialogue.Proofs.Finding

/-!
# Who is blamed for a bad definition

A link that looks up a definition with columns that cannot be read ends in a fault, which names the
flow that was asked for and the first such column, and comes before all that a link does otherwise.
A link that looks up a definition whose columns can be read never ends in such a fault
(`bad_column_blamed`).
-/

namespace Dialogue

/-- What is wrong with a column is told behind the name of the column. -/
theorem Defect.message_column (name : String) (why : Mismatch) :
    (Defect.column name why).message = name ++ (": " ++ why.message) := by
  simp [message, String.join, String.append_assoc]

/-- Of two columns one is read first. -/
theorem Column.before_or_eq (c c' : Column) : c = c' ∨ c ∈ c'.before ∨ c' ∈ c.before := by
  cases c <;> cases c' <;> decide

namespace Definition

variable {d : Definition} {c c' : Column} {why why' : Mismatch}

/-- There is one thing wrong with a column. -/
theorem Misreads.unique (h : d.Misreads c why) (h' : d.Misreads c why') : why = why' := by
  cases c <;> exact Except.error.inj (h.2.symm.trans h'.2)

/-- One column is blamed. -/
theorem Blames.unique (h : d.Blames c why) (h' : d.Blames c' why') : c = c' ∧ why = why' := by
  obtain rfl : c = c' := by
    rcases c.before_or_eq c' with same | before | before
    · exact same
    · exact absurd h.misread (h'.first c before why)
    · exact absurd h'.misread (h.first c' before why')
  exact ⟨rfl, h.misread.unique h'.misread⟩

end Definition

section

variable {m : Memory} {deposits : List Deposit} {preview : Bool} {flowId : String} {d : Definition}

/-- Instead of a flow the column is found that is to blame. -/
theorem Memory.found_misread (stored : LastDeposit deposits preview flowId d)
    (misread : ∃ c why, d.Misreads c why) :
    ∃ c why, d.Blames c why ∧ (m.stocked deposits).found preview flowId =
      .error (.invalidFlow flowId (.column c.name why)) := by
  rw [found_stocked stored]
  cases decoded : d.toFlow (if preview then none else some flowId) with
  | ok f =>
    obtain ⟨c, why, misread⟩ := misread
    exact absurd misread (Definition.toFlow_read decoded c why)
  | error e =>
    obtain ⟨c, why, blames, rfl⟩ := Definition.toFlow_eq_error decoded
    rw [stored.id_eq]
    exact ⟨c, why, blames, rfl⟩

/-- If no column is to blame the flow is found. -/
theorem Memory.found_read (stored : LastDeposit deposits preview flowId d)
    (read : ∀ c why, ¬ d.Misreads c why) :
    ∃ f, d.StandsFor f ∧ f.id = flowId ∧
      (m.stocked deposits).found preview flowId = .ok (some f) := by
  rw [found_stocked stored]
  cases decoded : d.toFlow (if preview then none else some flowId) with
  | ok f =>
    have id := (Definition.toFlow_eq_ok.mp decoded).1
    exact ⟨f, Definition.standsFor_of_toFlow decoded, id.trans stored.id_eq, rfl⟩
  | error e =>
    obtain ⟨c, why, blames, -⟩ := Definition.toFlow_eq_error decoded
    exact absurd blames.misread (read c why)

end

section

variable {config : Config} {current : Frame} {beneath : List Frame} {extra : Entries} {b : Block}
  {options : LinkOptions} {flowId : String} {m m' : Memory}

/-- What is wrong with a definition ends the link at once. -/
theorem visit_not_found {e : Fault}
    (wish : current.wish config (beneath.length + 1) b = .visit options flowId)
    (answers : m.outage m.journal (Memory.reading current.isPreview flowId) = none)
    (found : m.found current.isPreview flowId = .error e) :
    exec (Memory.host.link config ⟨current :: beneath, extra⟩ b) m =
      (.error e, m.note [Memory.reading current.isPreview flowId]) := by
  rw [exec_link_visit wish, answers, found]
  rfl

/-- A link whose look-up can be decoded fails for a store at most. -/
theorem visit_found {found : Option Flow} {e : Fault}
    (wish : current.wish config (beneath.length + 1) b = .visit options flowId)
    (known : m.found current.isPreview flowId = .ok found)
    (ran : exec (Memory.host.link config ⟨current :: beneath, extra⟩ b) m = (.error e, m')) :
    ∃ fault, e = .store fault := by
  cases link_visit wish ran with
  | unanswered fault => exact ⟨fault, rfl⟩
  | undecoded _ bad => cases known.symm.trans bad
  | unrecorded linked w fault => exact ⟨fault, rfl⟩

end

/-- A link to another flow that the stores answer. If a column of the definition that the session
finds cannot be read, the link ends in a fault that names the flow asked for and the first such
column, and its wording of the defect starts with the name of that column; whatever the other
columns and the block say, nothing but the look-up has been done. If every column can be read or is
null, no link ends in such a fault: the flow that is found has each part from its column, a null
column being empty, and its messages are those of its settings; and a frame that is pushed runs this
flow, with its variables filled and an edge into it. -/
theorem bad_column_blamed (m : Memory) {deposits : List Deposit} {config : Config}
    {current : Frame} {beneath : List Frame} {extra : Entries} {b : Block} {options : LinkOptions}
    {flowId : String} {d : Definition} {r : Except Fault Reply} {m' : Memory}
    (leads : b.Leads config (beneath.length + 1) options flowId)
    (across : ¬ (flowId = LinkOptions.currentFlow ∨ flowId = current.flow.id))
    (stored : LastDeposit deposits current.isPreview flowId d)
    (answers : m.outage m.journal (Memory.reading current.isPreview flowId) = none)
    (ran : exec (Memory.host.link config ⟨current :: beneath, extra⟩ b) (m.stocked deposits) =
      (r, m')) :
    ((∃ c why, d.Misreads c why) →
      ∃ c why, d.Blames c why ∧ r = .error (.invalidFlow flowId (.column c.name why)) ∧
        (Defect.column c.name why).message = c.name ++ (": " ++ why.message) ∧
        m' = (m.stocked deposits).note [Memory.reading current.isPreview flowId]) ∧
    ((∀ c why, ¬ d.Misreads c why) →
      (∀ id defect, r ≠ .error (.invalidFlow id defect)) ∧
      ∃ f, d.StandsFor f ∧ f.id = flowId ∧
        exec (Memory.host.fetch current.isPreview flowId) (m.stocked deposits) =
          (.ok (some f), (m.stocked deposits).note [Memory.reading current.isPreview flowId]) ∧
        ∀ reply s', r = .ok reply → reply.session = some s' →
          ∃ top under e, s'.frames = top :: under ∧
            top.flow = (f.withVariables (fill f.vars (current :: beneath))).withEdge e) := by
  have wish := leads.wish current
  rw [if_neg across] at wish
  have answers : (m.stocked deposits).outage (m.stocked deposits).journal
      (Memory.reading current.isPreview flowId) = none := by
    rw [m.stocked_outage, answers]
  refine ⟨fun misread => ?_, fun read => ?_⟩
  · obtain ⟨c, why, blames, found⟩ := Memory.found_misread stored misread
    obtain ⟨rfl, rfl⟩ := Prod.mk.inj ((visit_not_found wish answers found).symm.trans ran)
    exact ⟨c, why, blames, rfl, Defect.message_column c.name why, rfl⟩
  · obtain ⟨f, stands, id, found⟩ := Memory.found_read (m := m) stored read
    refine ⟨?_, f, stands, id, ?_, ?_⟩
    · rintro id defect rfl
      obtain ⟨fault, same⟩ := visit_found wish found ran
      cases same
    · rw [Memory.exec_fetch, answers, found]
    · rintro reply s' rfl pushed
      obtain ⟨linked, groupId, p, found', -, rfl, -, rfl⟩ := link_visited wish ran pushed
      obtain rfl := Option.some.inj (Except.ok.inj (found.symm.trans found'))
      exact ⟨_, _, _, rfl, rfl⟩

namespace Sample

/-- Questions with two columns that cannot be read. -/
def spoilt : Definition := { questions with vars := .string "none", settings := .bool true }

/-- The variables are to blame, since they are read first. -/
theorem spoilt_blames : ∃ why, spoilt.Blames .vars why := by
  have groups : ∀ why, ¬ spoilt.Misreads .groups why := by
    rintro why ⟨-, bad⟩
    cases bad
  have edges : ∀ why, ¬ spoilt.Misreads .edges why := fun why bad => bad.1 rfl
  exact ⟨_, ⟨nofun, rfl⟩,
    List.forall_mem_cons.mpr ⟨groups, List.forall_mem_singleton.mpr edges⟩⟩

theorem spoilt_last : LastDeposit [.published "survey" spoilt] false "survey" spoilt :=
  ⟨[], _, [], rfl, .published "survey" spoilt, nofun⟩

end Sample

/-- A survey is spoilt in two columns, and a link to it ends with the blame for one of them. -/
theorem bad_column_blamed_sample :
    ∃ why, exec (Memory.host.link .default ⟨[Sample.first], []⟩ Sample.join)
        ((Memory.empty Sample.ids).stocked [.published "survey" Sample.spoilt]) =
      (.error (.invalidFlow "survey" (.column "variables" why)),
        ((Memory.empty Sample.ids).stocked [.published "survey" Sample.spoilt]).note
          [.getPublished "survey"]) := by
  obtain ⟨r, m', ran⟩ : ∃ r m', exec (Memory.host.link .default ⟨[Sample.first], []⟩ Sample.join)
      ((Memory.empty Sample.ids).stocked [.published "survey" Sample.spoilt]) = (r, m') :=
    ⟨_, _, rfl⟩
  have leads : Sample.join.Leads .default 1 ⟨some "survey", some "q", some true⟩ "survey" :=
    ⟨rfl, rfl, by decide, .inl rfl⟩
  obtain ⟨why, blames⟩ := Sample.spoilt_blames
  obtain ⟨c, why', blames', rfl, -, rfl⟩ := (bad_column_blamed (.empty Sample.ids) leads (by decide)
    Sample.spoilt_last rfl ran).1 ⟨.vars, why, blames.misread⟩
  obtain ⟨rfl, rfl⟩ := blames'.unique blames
  exact ⟨why', ran⟩

end Dialogue
