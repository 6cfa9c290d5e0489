import Dialogue.Proofs.Moves

/-!
# Frames above others

A session that runs above further frames does what it does alone, except that the variables may have
other values: a linked flow is filled from all frames, also from those further down. `Frame.Alike`
relates a frame to one with other variables, and `Session.Above` a session to one with further
frames underneath. Links and returns respect both (`link_above`, `unwind_above`), until the session
alone has nothing left to do: then its last frame is popped above the others
(`unwind_above_finished`). Records hold variables, hence the two stores agree in all but them.
-/

namespace Dialogue

/-! ### Stores with other records -/

namespace Memory

/-- The stores with other records. -/
def withResults (m : Memory) (l : Ledger) : Memory := { m with results := l }

@[simp] theorem withResults_ids (m : Memory) (l : Ledger) : (m.withResults l).ids = m.ids := rfl

@[simp] theorem withResults_outage (m : Memory) (l : Ledger) :
    (m.withResults l).outage = m.outage := rfl

@[simp] theorem withResults_note (m : Memory) (l : Ledger) (calls : List Call) :
    (m.withResults l).note calls = (m.note calls).withResults l := rfl

@[simp] theorem withResults_withIds (m : Memory) (l : Ledger) (ids : IdSource) :
    (m.withResults l).withIds ids = (m.withIds ids).withResults l := rfl

@[simp] theorem withResults_withResults (m : Memory) (l l' : Ledger) :
    (m.withResults l).withResults l' = m.withResults l' := rfl

@[simp] theorem withResults_self (m : Memory) : m.withResults m.results = m := rfl

end Memory

/-! ### Frames with other variables -/

/-- The frame is the other one but for the variables. -/
def Frame.Alike (f g : Frame) : Prop := ∃ vars, g = f.withVars vars

namespace Frame

variable {f g parent parent' top top' : Frame}

theorem Alike.refl (f : Frame) : f.Alike f := ⟨f.flow.vars, rfl⟩

theorem Alike.resumed (below : parent.Alike parent') (above : top.Alike top') :
    (parent.resumed top).Alike (parent'.resumed top') := by
  obtain ⟨vars, rfl⟩ := below
  obtain ⟨vars', rfl⟩ := above
  have merges : (top.withVars vars').merges = top.merges := rfl
  unfold Frame.resumed
  rw [merges]
  split_ifs
  · exact ⟨_, rfl⟩
  · exact ⟨vars, rfl⟩

/-- Alike frames write under the same id when they are closed. -/
theorem Alike.closing? (h : f.Alike g) :
    g.closing?.map (·.id) = f.closing?.map (·.id) := by
  obtain ⟨vars, rfl⟩ := h
  have merges : (f.withVars vars).merges = f.merges := rfl
  have result : (f.withVars vars).resultId = f.resultId := rfl
  unfold Frame.closing?
  rw [merges, result]
  split_ifs
  · rfl
  · cases f.resultId <;> rfl

theorem pause_withVars (f : Frame) (vars : List Variable) (b : Block) (ids : IdSource) :
    (f.withVars vars).pause b ids =
      ⟨(f.pause b ids).caller.withVars vars, (f.pause b ids).returnEdgeId,
        (f.pause b ids).ids⟩ := by
  have target : (f.withVars vars).flow.resumeTarget? b = f.flow.resumeTarget? b := rfl
  unfold Frame.pause
  rw [target]
  cases f.flow.resumeTarget? b <;> rfl

end Frame

/-- Two pushes that agree but for variables. -/
structure Push.Alike (p q : Push) : Prop where
  top : p.top.Alike q.top
  caller : p.caller.Alike q.caller
  edgeId : q.edgeId = p.edgeId
  ids : q.ids = p.ids

theorem Frame.Alike.pushAgain {f g : Frame} (h : f.Alike g) (b : Block) (groupId : String)
    (ids : IdSource) : (f.pushAgain b groupId ids).Alike (g.pushAgain b groupId ids) := by
  obtain ⟨vars, rfl⟩ := h
  unfold Frame.pushAgain
  rw [Frame.pause_withVars]
  exact ⟨⟨vars, rfl⟩, ⟨vars, rfl⟩, rfl, rfl⟩

theorem Frame.Alike.pushOther {f g : Frame} (h : f.Alike g) (beneath beneath' : List Frame)
    (b : Block) (merges : Bool) (linked : Flow) (groupId : String) (ids : IdSource) :
    (f.pushOther beneath b merges linked groupId ids).Alike
      (g.pushOther beneath' b merges linked groupId ids) := by
  obtain ⟨vars, rfl⟩ := h
  have result (ids : IdSource) : (f.withVars vars).resultFor merges ids = f.resultFor merges ids :=
    rfl
  unfold Frame.pushOther
  rw [Frame.pause_withVars]
  simp only [result]
  exact ⟨⟨_, rfl⟩, ⟨vars, rfl⟩, rfl, rfl⟩

/-! ### Returns above other frames -/

/-- Every edge of the flow leads to a group of the flow. -/
def Flow.Closed (f : Flow) : Prop := ∀ e ∈ f.edges, (f.group? e.target.groupId).isSome

/-- In a closed flow every edge that is found leads somewhere. -/
theorem Flow.Closed.destination {f : Flow} (h : f.Closed) {edgeId : Option String} {e : Edge}
    (found : edgeId.bind f.edge? = some e) : f.destination e ≠ none := by
  obtain ⟨id, -, found⟩ := Option.bind_eq_some_iff.mp found
  have target := h e (List.mem_of_find?_eq_some found)
  obtain ⟨g, hg⟩ := Option.isSome_iff_exists.mp target
  simp [Flow.destination, hg]

theorem Flow.Closed.resumed {parent : Frame} (h : parent.flow.Closed) (top : Frame) :
    (parent.resumed top).flow.Closed := by
  unfold Frame.resumed
  split <;> exact h

section

variable {R : List Frame}

/-- A return that leads to a group leads there above other frames as well. -/
theorem unwind_above {beneath beneath' : List Frame} {top top' : Frame} {edgeId : Option String}
    {group : Group} (same : top.Alike top') (rest : List.Forall₂ Frame.Alike beneath beneath')
    (leads : (unwind top beneath edgeId).group = some group) :
    (unwind top' (beneath' ++ R) edgeId).group = some group ∧
      List.Forall₂ Frame.Alike (unwind top beneath edgeId).popped
        (unwind top' (beneath' ++ R) edgeId).popped ∧
      ∃ frames, (unwind top' (beneath' ++ R) edgeId).frames = frames ++ R ∧
        List.Forall₂ Frame.Alike (unwind top beneath edgeId).frames frames := by
  induction rest generalizing top top' edgeId with
  | nil =>
    obtain ⟨vars, rfl⟩ := id same
    obtain ⟨e, he, hg⟩ := Option.bind_eq_some_iff.mp leads
    have he' : edgeId.bind (top.withVars vars).flow.edge? = some e := he
    have hg' : (top.withVars vars).flow.destination e = some group := hg
    -- the last frame is asked for its group without a look at what is beneath, and so `unwind`
    -- tells it apart, although an edge that leads somewhere is followed in the same way
    cases R with
    | nil =>
      refine ⟨?_, .nil, [top.withVars vars], rfl, .cons same .nil⟩
      simp [unwind, he', hg']
    | cons r rs =>
      rw [List.nil_append, unwind_of_edge he']
      exact ⟨hg', .nil, [top.withVars vars], rfl, .cons same .nil⟩
  | cons below rest ih =>
    obtain ⟨vars, rfl⟩ := id same
    rw [List.cons_append]
    cases he : edgeId.bind top.flow.edge? with
    | some e =>
      have he' : edgeId.bind (top.withVars vars).flow.edge? = some e := he
      rw [unwind_of_edge he] at leads ⊢
      rw [unwind_of_edge he']
      exact ⟨leads, .nil, _ :: _ :: _, rfl, .cons same (.cons below rest)⟩
    | none =>
      have he' : edgeId.bind (top.withVars vars).flow.edge? = none := he
      rw [unwind_of_no_edge he] at leads ⊢
      rw [unwind_of_no_edge he']
      obtain ⟨there, popped, left⟩ := ih (below.resumed same) leads
      exact ⟨there, .cons same popped, left⟩

/-- A return that leads nowhere pops all frames but the last. Above other frames it pops the last
one as well, restored by those above it like each of them, and goes on from there. -/
theorem unwind_above_finished {beneath beneath' : List Frame} {top top' : Frame}
    {edgeId : Option String} (r : Frame) (rs : List Frame) (same : top.Alike top')
    (rest : List.Forall₂ Frame.Alike beneath beneath')
    (closed : ∀ f ∈ top :: beneath, f.flow.Closed)
    (leads : (unwind top beneath edgeId).group = none) :
    ∃ c c' popped, (unwind top beneath edgeId).frames = [c] ∧ c.Alike c' ∧
      List.Forall₂ Frame.Alike (unwind top beneath edgeId).popped popped ∧
      restoredEach (top' :: beneath').reverse = c' :: popped.reverse ∧
      unwind top' (beneath' ++ r :: rs) edgeId =
        { unwind (r.resumed c') rs c'.returnEdgeId with
          popped := popped ++ [c'] ++ (unwind (r.resumed c') rs c'.returnEdgeId).popped } := by
  induction rest generalizing top top' edgeId with
  | nil =>
    obtain ⟨vars, rfl⟩ := id same
    refine ⟨top, top.withVars vars, [], rfl, same, .nil, rfl, ?_⟩
    have none : edgeId.bind (top.withVars vars).flow.edge? = none := by
      cases he : edgeId.bind top.flow.edge? with
      | none => exact he
      | some e =>
        have target := (closed top List.mem_cons_self).destination he
        simp only [unwind, he, Option.bind_some] at leads
        exact absurd leads target
    rw [List.nil_append, unwind_of_no_edge none]
    rfl
  | @cons parent parent' beneath beneath' below rest ih =>
    obtain ⟨vars, rfl⟩ := id same
    rw [List.cons_append]
    cases he : edgeId.bind top.flow.edge? with
    | some e =>
      have target := (closed top List.mem_cons_self).destination he
      rw [unwind_of_edge he] at leads
      exact absurd leads target
    | none =>
      have he' : edgeId.bind (top.withVars vars).flow.edge? = none := he
      have closed' : ∀ f ∈ parent.resumed top :: beneath, f.flow.Closed := by
        intro f hf
        rcases List.mem_cons.mp hf with rfl | hf
        · exact (closed parent (by simp)).resumed top
        · exact closed f (List.mem_cons_of_mem _ (List.mem_cons_of_mem _ hf))
      rw [unwind_of_no_edge he] at leads ⊢
      rw [unwind_of_no_edge he']
      obtain ⟨c, c', popped, last, alike, others, each, above⟩ :=
        ih (below.resumed same) closed' leads
      refine ⟨c, c', top.withVars vars :: popped, last, alike, .cons same others, ?_, ?_⟩
      · rw [restoredEach_pop, each, List.reverse_cons, List.cons_append]
      · rw [show (top.withVars vars).returnEdgeId = top.returnEdgeId from rfl, above]
        rfl

/-! ### Requests above other frames -/

/-- Alike frames are opened under the same id. -/
theorem Memory.opened_withResults {f g : Frame} (h : f.Alike g) (m : Memory) (l : Ledger) :
    ∃ l', (m.withResults l).opened g = (m.opened f).withResults l' := by
  obtain ⟨vars, rfl⟩ := h
  have answers : (f.withVars vars).answers = f.answers := rfl
  have result : (f.withVars vars).resultId = f.resultId := rfl
  unfold opened Frame.opening?
  rw [answers, result]
  split_ifs
  · cases f.resultId with
    | none => exact ⟨l, rfl⟩
    | some id => exact ⟨_, rfl⟩
  · exact ⟨l, rfl⟩

/-- Writes under the same ids differ in the records that they leave. -/
theorem Memory.wrote_withResults {writes writes' : List ResultWrite}
    (ids : writes'.map (·.id) = writes.map (·.id)) (m : Memory) (l : Ledger) :
    ∃ l', (m.withResults l).wrote writes' = (m.wrote writes).withResults l' := by
  have calls : (writes'.map fun w => Call.upsertResult w.id) =
      writes.map fun w => Call.upsertResult w.id := by
    have mapped := congrArg (List.map Call.upsertResult) ids
    rwa [List.map_map, List.map_map] at mapped
  refine ⟨writes'.foldl Ledger.upsert l, ?_⟩
  simp only [wrote, withResults, calls]

theorem closing_ids {popped popped' : List Frame} (h : List.Forall₂ Frame.Alike popped popped') :
    (popped'.filterMap Frame.closing?).map (·.id) =
      (popped.filterMap Frame.closing?).map (·.id) := by
  simp only [List.map_filterMap]
  induction h with
  | nil => rfl
  | cons same _ ih => simp only [List.filterMap_cons, same.closing?, ih]

/-- The session is the other one above further frames, but for variables. -/
structure Session.Above (R : List Frame) (s s' : Session) : Prop where
  frames : ∃ frames, s'.frames = frames ++ R ∧ List.Forall₂ Frame.Alike s.frames frames
  extra : s'.extra = s.extra

/-- The answer is the other one above further frames, but for variables. -/
structure Reply.Above (R : List Frame) (a a' : Reply) : Prop where
  outgoingEdgeId : a'.outgoingEdgeId = a.outgoingEdgeId
  session : Option.Rel (Session.Above R) a.session a'.session
  logs : a'.logs = a.logs

variable {config : Config} {current current' : Frame} {beneath beneath' : List Frame}
  {extra : Entries} {m m₁ : Memory} {b : Block} {a : Reply}

theorem Session.Above.cons (top : current.Alike current')
    (rest : List.Forall₂ Frame.Alike beneath beneath') (extra : Entries) :
    Session.Above R ⟨current :: beneath, extra⟩ ⟨current' :: (beneath' ++ R), extra⟩ :=
  ⟨⟨current' :: beneath', rfl, .cons top rest⟩, rfl⟩

/-- What stands above other frames has an active frame of its own. -/
theorem Session.Above.of_cons {s' : Session}
    (h : Session.Above R ⟨current :: beneath, extra⟩ s') :
    ∃ current' beneath', s' = ⟨current' :: (beneath' ++ R), extra⟩ ∧ current.Alike current' ∧
      List.Forall₂ Frame.Alike beneath beneath' := by
  obtain ⟨⟨frames, hframes, alike⟩, hextra⟩ := h
  cases alike with
  | cons top rest =>
    obtain ⟨frames', extra'⟩ := s'
    obtain rfl : frames' = _ := hframes
    obtain rfl : extra' = extra := hextra
    exact ⟨_, _, rfl, top, rest⟩

theorem Push.Alike.reply {p q : Push} (h : p.Alike q)
    (rest : List.Forall₂ Frame.Alike beneath beneath') :
    (p.reply beneath extra).Above R (q.reply (beneath' ++ R) extra) :=
  ⟨congrArg some h.edgeId, .some (.cons h.top (.cons h.caller rest) extra), rfl⟩

/-- Without a limit, and but for variables, a block wishes the same at every depth. -/
theorem wish_alike (unlimited : config.maxDepth = 0) (h : current.Alike current')
    (depth depth' : Nat) (b : Block) :
    current'.wish config depth' b = current.wish config depth b := by
  obtain ⟨vars, rfl⟩ := h
  unfold Frame.wish
  simp only [Config.allowsPush, unlimited, beq_self_eq_true, Bool.true_or]
  rfl

/-- A link above other frames does what it does alone. -/
theorem link_above (unlimited : config.maxDepth = 0) (healthy : m.outage = .none)
    (top : current.Alike current') (rest : List.Forall₂ Frame.Alike beneath beneath')
    (h : exec (Memory.host.link config ⟨current :: beneath, extra⟩ b) m = (.ok a, m₁))
    (l : Ledger) :
    ∃ a' l', exec (Memory.host.link config ⟨current' :: (beneath' ++ R), extra⟩ b)
        (m.withResults l) = (.ok a', m₁.withResults l') ∧ a.Above R a' := by
  have same := wish_alike unlimited top (beneath.length + 1) ((beneath' ++ R).length + 1) b
  cases wish : current.wish config (beneath.length + 1) b with
  | refuse r =>
    rw [exec_link_refuse wish] at h
    cases h
    exact ⟨b.refuse r, l, exec_link_refuse (same.trans wish), rfl, .none, rfl⟩
  | again groupId =>
    have alike := top.pushAgain b groupId m.ids
    rw [exec_link_again wish] at h
    cases h
    refine ⟨_, l, ?_, alike.reply rest⟩
    rw [exec_link_again (same.trans wish)]
    simp [alike.ids]
  | visit options flowId =>
    have mode : current'.isPreview = current.isPreview := by
      obtain ⟨vars, rfl⟩ := top
      rfl
    have fails : (m.withResults l).outage (m.withResults l).journal
        (Memory.reading current.isPreview flowId) = none := by
      rw [Memory.withResults_outage, healthy]
      rfl
    have found : (m.withResults l).found current.isPreview flowId =
        m.found current.isPreview flowId := rfl
    have visits : exec (Memory.host.link config ⟨current' :: (beneath' ++ R), extra⟩ b)
        (m.withResults l) = _ := exec_link_visit (same.trans wish)
    rw [mode, fails, found] at visits
    cases link_visit wish h with
    | refused definition r known landed =>
      refine ⟨b.refuse r, l, ?_, rfl, .none, rfl⟩
      rw [visits, known, proceed_ok, landed]
      rfl
    | pushed linked groupId p known held made =>
      subst made
      have fetched : ((m.withResults l).note [Memory.reading current.isPreview flowId]).outage =
        .none := healthy
      obtain ⟨l', opened⟩ := Memory.opened_withResults top
        (m.note [Memory.reading current.isPreview flowId]) l
      have merges : current'.flow.mergesLinked options.mergesResults config.mergesByDefault =
          current.flow.mergesLinked options.mergesResults config.mergesByDefault := by
        obtain ⟨vars, rfl⟩ := top
        rfl
      have alike := top.pushOther beneath (beneath' ++ R) b
        (current.flow.mergesLinked options.mergesResults config.mergesByDefault) linked groupId
        m.ids
      refine ⟨_, l', ?_, alike.reply rest⟩
      rw [visits, known, proceed_ok, options.land_of_held held, Memory.exec_take_other,
        Memory.exec_ensureStarted_healthy fetched, proceed_ok]
      simp [opened, merges, alike.ids]

end

end Dialogue
