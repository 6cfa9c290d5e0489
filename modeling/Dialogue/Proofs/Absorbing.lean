import Dialogue.Proofs.Handing

/-!
# Absorbing a finished frame twice

A frame is left as it is by a finished one exactly when it has all that is handed over to it
(`Frame.absorb_eq_self_iff`): the values under its names, variables for the further ones, and the
answers. If the finished flow has no name twice, the frame beneath has all of that once it has
absorbed it, so that to absorb it again changes nothing; and a frame without a name twice has all
that a copy of it hands over (`absorb_settles`). Names that the frame beneath has twice, null, and
variables without a value make no difference.
-/

namespace Dialogue

/-- A frame has taken all that a finished frame hands over to it. -/
structure Frame.HasTaken (parent finished : Frame) : Prop where
  values : ∀ v ∈ parent.flow.vars, ∀ j, finished.flow.valueOf? v.name = some j → v.value = some j
  declares : ∀ w ∈ finished.flow.vars, w.hasValue = true → parent.flow.varNamed? w.name ≠ none
  answers : finished.answers = parent.answers

/-! ### Frames that have it all -/

section

variable {f : Flow} {v : Variable} {vs : List Variable} {parent finished : Frame}

/-- A variable keeps its value if it has the one that the finished flow leaves, if any. -/
theorem Variable.updated_eq_self_iff :
    v.updated f = v ↔ ∀ j, f.valueOf? v.name = some j → v.value = some j := by
  rw [updated_eq]
  constructor
  · intro kept j left
    rw [left, Option.some_or] at kept
    rw [← kept]
  · intro has
    cases left : f.valueOf? v.name with
    | none => rw [Option.none_or]
    | some j => rw [Option.some_or, ← has j left]

theorem Flow.undeclared_eq_nil_iff :
    f.undeclared vs = [] ↔ ∀ w ∈ vs, w.hasValue = true → f.varNamed? w.name ≠ none := by
  simp [undeclared]

/-- A finished frame changes nothing exactly when all that it hands over is there. -/
theorem Frame.absorb_eq_self_iff : parent.absorb finished = parent ↔ parent.HasTaken finished := by
  have own : parent.flow.vars.map (Variable.updated finished.flow) = parent.flow.vars ↔
      ∀ v ∈ parent.flow.vars, v.updated finished.flow = v := by
    conv_lhs => rhs; rw [← List.map_id parent.flow.vars]
    exact List.map_inj_left
  constructor
  · intro same
    have vars : parent.flow.vars.map (Variable.updated finished.flow) ++
        parent.flow.undeclared finished.flow.vars = parent.flow.vars :=
      congrArg (·.flow.vars) same
    -- what is appended makes the list longer, so nothing is
    have further : parent.flow.undeclared finished.flow.vars = [] := by
      have counted := congrArg List.length vars
      rw [List.length_append, List.length_map] at counted
      exact List.length_eq_zero_iff.mp (by omega)
    rw [further, List.append_nil] at vars
    exact ⟨fun v hv => Variable.updated_eq_self_iff.mp (own.mp vars v hv),
      Flow.undeclared_eq_nil_iff.mp further, congrArg (·.answers) same⟩
  · intro taken
    have kept := own.mpr fun v hv => Variable.updated_eq_self_iff.mpr (taken.values v hv)
    have further := Flow.undeclared_eq_nil_iff.mpr taken.declares
    rw [absorb, kept, further, List.append_nil, taken.answers]
    rfl

/-- A frame that has absorbed another has all that it handed over. -/
theorem Frame.hasTaken_absorb (parent : Frame) (apart : finished.flow.NamesApart) :
    (parent.absorb finished).HasTaken finished where
  values v hv j left := by
    rcases List.mem_append.mp hv with own | handed
    · obtain ⟨u, -, rfl⟩ := List.mem_map.mp own
      rw [Variable.updated_name] at left
      rw [Variable.updated_eq, left, Option.some_or]
    · -- what was appended is a variable of the finished frame, the only one of its name
      obtain ⟨mem, undeclared⟩ := List.mem_filter.mp handed
      have valued := (Bool.and_eq_true_iff.mp undeclared).1
      rw [← apart.valueOf?_of_hasValue mem valued, left]
  declares w hw valued := by
    obtain ⟨j, value, -⟩ := Variable.hasValue_iff.mp valued
    obtain ⟨v, named, -⟩ :=
      absorb_valued parent apart ((apart.valueOf?_of_hasValue hw valued).trans value)
    rw [named]
    exact Option.some_ne_none v
  answers := rfl

/-- A frame without a name twice has all that a copy of it hands over. -/
theorem Frame.hasTaken_copy {copy : Frame} (apart : parent.flow.NamesApart)
    (vars : copy.flow.vars = parent.flow.vars) (answers : copy.answers = parent.answers) :
    parent.HasTaken copy where
  values v hv j left := by
    have declared : copy.flow.varNamed? v.name = some v := by
      rw [Flow.varNamed?, vars]
      exact apart.varNamed?_eq hv
    rw [Flow.valueOf?_eq declared] at left
    split at left
    · exact left
    · cases left
  declares w hw _ := Flow.declares_iff.mp ⟨w, vars ▸ hw, rfl⟩
  answers := answers

/-- A frame whose names are apart is the same again once a link to its own flow has been followed
and left at once. -/
theorem Frame.resumed_pushAgain (current : Frame) (apart : current.flow.NamesApart) (b : Block)
    (groupId : String) (ids : IdSource) :
    (current.pushAgain b groupId ids).caller.resumed (current.pushAgain b groupId ids).top =
      (current.pushAgain b groupId ids).caller := by
  have waits : (current.pushAgain b groupId ids).caller.flow.vars = current.flow.vars :=
    current.pause_vars b ids
  have callerApart : (current.pushAgain b groupId ids).caller.flow.NamesApart := by
    rw [Flow.NamesApart, waits]
    exact apart
  rw [resumed_of_merges _ (current.pushAgain_merges b groupId ids)]
  exact absorb_eq_self_iff.mpr
    (hasTaken_copy callerApart waits.symm (current.pause_answers b ids).symm)

end

/-- What a finished frame hands over settles at once. To absorb it twice leaves what it leaves when
it is absorbed once, if its flow has no name twice; the frame beneath may have some. And a frame
whose names are apart is left as it is by any frame with the same variables and answers, and so by
one that a link to its own flow pushes. -/
theorem absorb_settles (parent : Frame) :
    (∀ finished : Frame, finished.flow.NamesApart →
      (parent.absorb finished).absorb finished = parent.absorb finished) ∧
    (parent.flow.NamesApart →
      (∀ copy : Frame, copy.flow.vars = parent.flow.vars → copy.answers = parent.answers →
        parent.absorb copy = parent) ∧
      ∀ b groupId ids, (parent.pushAgain b groupId ids).caller.resumed
        (parent.pushAgain b groupId ids).top = (parent.pushAgain b groupId ids).caller) := by
  refine ⟨fun finished apart => ?_, fun apart => ⟨fun copy vars answers => ?_, ?_⟩⟩
  · exact Frame.absorb_eq_self_iff.mpr (Frame.hasTaken_absorb parent apart)
  · exact Frame.absorb_eq_self_iff.mpr (Frame.hasTaken_copy apart vars answers)
  · exact fun b groupId ids => parent.resumed_pushAgain apart b groupId ids

namespace Sample

/-- A finished frame that gives values to two names and has none for two others. -/
def census : Frame :=
  holding [⟨"w1", "name", some (.string "Eve")⟩, ⟨"w2", "age", some .null⟩, ⟨"w3", "city", none⟩,
    ⟨"w4", "plan", some (.string "free")⟩] [⟨"n", "Eve", none⟩] true

/-- A finished frame that gives two values to one name. -/
def roster : Frame :=
  holding [⟨"w1", "plan", some (.string "free")⟩, ⟨"w2", "plan", some (.string "paid")⟩] [] true

/-- A second time, two values under one name are no longer what they were. -/
example : ((signup.absorb roster).flow.vars.map (·.value)).drop 3 =
      [some (.string "free"), some (.string "paid")] ∧
    (((signup.absorb roster).absorb roster).flow.vars.map (·.value)).drop 3 =
      [some (.string "free"), some (.string "free")] := ⟨rfl, rfl⟩

theorem census_apart : census.flow.NamesApart := by
  change ["name", "age", "city", "plan"].Nodup
  decide

end Sample

/-- The signup has one name twice, and takes a name and a further variable from the census. A copy
of the census leaves it as it is. -/
theorem absorb_settles_sample :
    (Sample.signup.absorb Sample.census).flow.vars = [⟨"v1", "name", some (.string "Eve")⟩,
      ⟨"v2", "age", none⟩, ⟨"v3", "name", some (.string "Eve")⟩,
      ⟨"w4", "plan", some (.string "free")⟩] ∧
    (Sample.signup.absorb Sample.census).absorb Sample.census =
      Sample.signup.absorb Sample.census ∧
    Sample.census.absorb { Sample.census with returnEdgeId := some "back" } = Sample.census :=
  ⟨rfl, (absorb_settles Sample.signup).1 Sample.census Sample.census_apart,
    ((absorb_settles Sample.census).2 Sample.census_apart).1 _ rfl rfl⟩

end Dialogue
