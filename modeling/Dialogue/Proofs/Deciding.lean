import Dialogue.Proofs.Moves

/-!
# When a link is followed

What a link block wishes is told from the session and the configuration alone (`Frame.wish`), and
one look-up at most settles it. Hence it can be said without the engine when a frame is pushed
(`Frame.Follows`), and a link that pushes none leaves all but the journal as it was
(`link_all_or_nothing`).
-/

namespace Dialogue

/-! ### When a frame is pushed -/

/-- A link block leads to a flow, and there is room for one more frame. -/
structure Block.Leads (b : Block) (config : Config) (depth : Nat) (options : LinkOptions)
    (flowId : String) : Prop where
  readable : b.linkOptions = .ok options
  named : options.flowId = some flowId
  nonempty : flowId ≠ ""
  room : config.maxDepth = 0 ∨ depth < config.maxDepth

/-- The options name a group. -/
def LinkOptions.NamesGroup (o : LinkOptions) (groupId : String) : Prop :=
  o.groupId = some groupId ∧ groupId ≠ ""

/-- A group where a flow is entered unless another is named: in a modern flow the one where the edge
of its first event leads, in an older one the first with a start block. -/
def Flow.OwnEntry (f : Flow) (groupId : String) : Prop :=
  if f.schemaVersion.isModern then
    ∃ event edgeId edge, f.events.head? = some event ∧ event.outgoingEdgeId = some edgeId ∧
      (f.edges.find? fun e => e.id == edgeId) = some edge ∧ edge.target.groupId = groupId
  else
    ∃ g, (f.groups.find? fun g => g.blocks.any fun b => b.type == "start") = some g ∧
      g.id = groupId

/-- A group where a flow is entered: the one that the options name, or else its own entry. -/
def LinkOptions.Enters (o : LinkOptions) (linked : Flow) (groupId : String) : Prop :=
  o.NamesGroup groupId ∨ (∀ id, ¬ o.NamesGroup id) ∧ linked.OwnEntry groupId

/-- A link of the active frame leads into an existing group: of the active flow, or of a flow that
is stored for the session. -/
def Frame.Follows (current : Frame) (config : Config) (m : Memory) (depth : Nat) (b : Block) :
    Prop :=
  ∃ options flowId, b.Leads config depth options flowId ∧
    if flowId = LinkOptions.currentFlow ∨ flowId = current.flow.id then
      ∃ g ∈ current.flow.groups, options.NamesGroup g.id
    else
      ∃ linked, m.found current.isPreview flowId = .ok (some linked) ∧
        ∃ g ∈ linked.groups, options.Enters linked g.id

section

variable {options : LinkOptions} {flowId : String} {f : Flow}

theorem LinkOptions.flow?_eq_some :
    options.flow? = some flowId ↔ options.flowId = some flowId ∧ flowId ≠ "" := by
  simp [flow?, Option.filter_eq_some_iff]

theorem LinkOptions.group?_eq_some {groupId : String} :
    options.group? = some groupId ↔ options.NamesGroup groupId := by
  simp [group?, NamesGroup, Option.filter_eq_some_iff]

theorem LinkOptions.targetsActive_iff (named : options.flow? = some flowId) {activeId : String} :
    options.targetsActive activeId = true ↔ flowId = currentFlow ∨ flowId = activeId := by
  simp [targetsActive, named]

theorem Config.allowsPush_iff {config : Config} {depth : Nat} :
    config.allowsPush depth = true ↔ config.maxDepth = 0 ∨ depth < config.maxDepth := by
  simp [allowsPush]

theorem Flow.existing_eq_some {wanted : Option String} {groupId : String} :
    f.existing wanted = some groupId ↔ wanted = some groupId ∧ ∃ g ∈ f.groups, g.id = groupId := by
  simp [existing, Option.filter_eq_some_iff, Flow.group?]

theorem Flow.entryGroup_none_eq_some {groupId : String} :
    f.entryGroup none = some groupId ↔ f.OwnEntry groupId := by
  unfold entryGroup OwnEntry
  dsimp only
  split_ifs
  · simp [Option.bind_eq_some_iff, edge?]
  · exact Option.map_eq_some_iff

theorem Flow.entryGroup_eq_some {groupId : String} :
    f.entryGroup options.group? = some groupId ↔ options.Enters f groupId := by
  unfold LinkOptions.Enters
  cases h : options.group? with
  | none =>
    have unnamed : ∀ id, ¬ options.NamesGroup id := fun id named => by
      simp [LinkOptions.group?_eq_some.mpr named] at h
    simp [unnamed, Flow.entryGroup_none_eq_some]
  | some id =>
    have named := LinkOptions.group?_eq_some.mp h
    have only : options.NamesGroup groupId ↔ id = groupId := by
      rw [← LinkOptions.group?_eq_some, h, Option.some_inj]
    have wanted : f.entryGroup (some id) = some id := rfl
    rw [wanted, Option.some_inj, only]
    exact (or_iff_left fun unnamed => unnamed.1 id named).symm

end

section

variable {config : Config} {depth : Nat} {b : Block} {options : LinkOptions} {flowId : String}

/-- What a block wishes that leads somewhere. -/
theorem Block.Leads.wish (h : b.Leads config depth options flowId) (current : Frame) :
    current.wish config depth b =
      if flowId = LinkOptions.currentFlow ∨ flowId = current.flow.id then
        match current.flow.existing options.group? with
        | none => .refuse (.unknownGroup options.group?)
        | some groupId => .again groupId
      else .visit options flowId := by
  have named := LinkOptions.flow?_eq_some.mpr ⟨h.named, h.nonempty⟩
  have room := Config.allowsPush_iff.mpr h.room
  unfold Frame.wish
  rw [h.readable]
  dsimp only
  rw [named]
  dsimp only
  rw [room, if_neg (by decide)]
  exact if_congr (LinkOptions.targetsActive_iff named) rfl rfl

/-- A block that leads nowhere is refused. -/
theorem wish_of_not_leads (current : Frame)
    (h : ∀ options flowId, ¬ b.Leads config depth options flowId) :
    ∃ r, current.wish config depth b = .refuse r := by
  unfold Frame.wish
  cases readable : b.linkOptions with
  | error m => exact ⟨_, rfl⟩
  | ok options =>
    dsimp only
    cases named : options.flow? with
    | none => exact ⟨_, rfl⟩
    | some flowId =>
      have full : config.allowsPush depth = false := by
        by_contra room
        obtain ⟨named, nonempty⟩ := LinkOptions.flow?_eq_some.mp named
        exact h options flowId
          ⟨readable, named, nonempty, Config.allowsPush_iff.mp (Bool.not_eq_false _ ▸ room)⟩
      exact ⟨.tooDeep, by simp [full]⟩

end

/-- A link answers a new state of the session. -/
def Pushes (r : Except Fault Reply) : Prop := ∃ reply s, r = .ok reply ∧ reply.session = some s

/-- Whether a request looks up a definition. -/
def Call.reads : Call → Bool
  | .getDraft _ => true
  | .getPublished _ => true
  | _ => false

theorem not_pushes_refuse (b : Block) (r : Refusal) : ¬ Pushes (.ok (b.refuse r)) := by
  rintro ⟨reply, s, answer, pushed⟩
  obtain rfl := Except.ok.inj answer
  simp [Block.refuse] at pushed

namespace Memory

/-- Every stored definition can be decoded. -/
def Decodes (m : Memory) : Prop := ∀ preview flowId f, m.found preview flowId ≠ .error f

theorem found_error {m : Memory} {preview : Bool} {flowId : String} {f : Fault}
    (h : m.found preview flowId = .error f) : f ≠ .noFrame := by
  unfold found at h
  cases hd : m.definition? preview flowId with
  | none => simp [hd] at h
  | some d =>
    rw [hd] at h
    cases hf : d.toFlow (if preview then none else some flowId) with
    | ok g => simp [hf] at h
    | error e =>
      obtain rfl : e = f := by simpa [hf] using h
      exact Definition.toFlow_error hf

theorem reading_reads (preview : Bool) (flowId : String) :
    (reading preview flowId).reads = true := by
  cases preview <;> rfl

theorem opened_calls (m : Memory) (current : Frame) :
    (m.opened current).journal =
      m.journal ++ (current.opening?.toList.map fun w => .ensureResult w.id) := by
  unfold opened
  cases current.opening? <;> simp

end Memory

section

variable {config : Config} {current : Frame} {beneath : List Frame} {extra : Entries} {b : Block}
  {m m' : Memory} {r : Except Fault Reply}

theorem Frame.Follows.pushes (h : current.Follows config m (beneath.length + 1) b)
    (healthy : m.outage = .none)
    (ran : exec (Memory.host.link config ⟨current :: beneath, extra⟩ b) m = (r, m')) :
    Pushes r := by
  obtain rfl : _ = r := congrArg Prod.fst ran
  obtain ⟨options, flowId, leads, into⟩ := h
  have wish := leads.wish current
  split_ifs at into wish with active
  · obtain ⟨g, hg, named⟩ := into
    have held : current.flow.existing options.group? = some g.id :=
      Flow.existing_eq_some.mpr ⟨LinkOptions.group?_eq_some.mpr named, g, hg, rfl⟩
    rw [held] at wish
    rw [exec_link_again wish]
    exact ⟨_, _, rfl, rfl⟩
  · obtain ⟨linked, found, g, hg, enters⟩ := into
    have held : linked.existing (linked.entryGroup options.group?) = some g.id :=
      Flow.existing_eq_some.mpr ⟨Flow.entryGroup_eq_some.mpr enters, g, hg, rfl⟩
    have landed := options.land_of_held held flowId
    have noted : (m.note [Memory.reading current.isPreview flowId]).outage = .none := healthy
    rw [exec_link_visit wish, healthy, found]
    simp only [Outage.none, proceed_ok, landed, Memory.exec_take_other,
      Memory.exec_ensureStarted_healthy noted]
    exact ⟨_, _, rfl, rfl⟩

/-- Without an outage, a link that leads into no existing group is refused. -/
theorem refused_of_not_follows (h : ¬ current.Follows config m (beneath.length + 1) b)
    (healthy : m.outage = .none) (decodes : m.Decodes)
    (ran : exec (Memory.host.link config ⟨current :: beneath, extra⟩ b) m = (r, m')) :
    ∃ refusal, r = .ok (b.refuse refusal) := by
  have refused {refusal : Refusal}
      (wish : current.wish config (beneath.length + 1) b = .refuse refusal) :
      ∃ refusal, r = .ok (b.refuse refusal) :=
    ⟨refusal, congrArg Prod.fst (ran.symm.trans (exec_link_refuse wish))⟩
  by_cases leads : ∃ options flowId, b.Leads config (beneath.length + 1) options flowId
  · obtain ⟨options, flowId, leads⟩ := leads
    have wish := leads.wish current
    split_ifs at wish with active
    · cases held : current.flow.existing options.group? with
      | none =>
        rw [held] at wish
        exact refused wish
      | some groupId =>
        obtain ⟨named, g, hg, rfl⟩ := Flow.existing_eq_some.mp held
        refine absurd ⟨options, flowId, leads, ?_⟩ h
        rw [if_pos active]
        exact ⟨g, hg, LinkOptions.group?_eq_some.mp named⟩
    · cases link_visit wish ran with
      | unanswered fault fails => simp [healthy, Outage.none] at fails
      | undecoded f bad => exact absurd bad (decodes _ _ f)
      | refused found refusal => exact ⟨refusal, rfl⟩
      | unrecorded linked w fault known fails => simp [healthy, Outage.none] at fails
      | pushed linked groupId p known held =>
        obtain ⟨entered, g, hg, rfl⟩ := Flow.existing_eq_some.mp held
        refine absurd ⟨options, flowId, leads, ?_⟩ h
        rw [if_neg active]
        exact ⟨linked, known, g, hg, Flow.entryGroup_eq_some.mp entered⟩
  · have nowhere : ∀ options flowId, ¬ b.Leads config (beneath.length + 1) options flowId :=
      fun options flowId h => leads ⟨options, flowId, h⟩
    obtain ⟨refusal, wish⟩ := wish_of_not_leads current nowhere
    exact refused wish

/-- A link that pushes nothing notes its requests, with one look-up at most, and does nothing else;
it does not miss a frame. -/
theorem link_without_push
    (ran : exec (Memory.host.link config ⟨current :: beneath, extra⟩ b) m = (r, m'))
    (unpushed : ¬ Pushes r) :
    r ≠ .error .noFrame ∧ ∃ calls, m' = m.note calls ∧ calls.countP Call.reads ≤ 1 := by
  cases wish : current.wish config (beneath.length + 1) b with
  | refuse r =>
    rw [exec_link_refuse wish] at ran
    obtain ⟨rfl, rfl⟩ := Prod.mk.inj ran
    exact ⟨by simp, [], by simp, by simp⟩
  | again groupId =>
    rw [exec_link_again wish] at ran
    obtain ⟨rfl, rfl⟩ := Prod.mk.inj ran
    exact absurd ⟨_, _, rfl, rfl⟩ unpushed
  | visit options flowId =>
    have one : [Memory.reading current.isPreview flowId].countP Call.reads ≤ 1 :=
      List.countP_le_length
    cases link_visit wish ran with
    | unanswered fault fails => exact ⟨by simp, _, rfl, one⟩
    | undecoded f bad => exact ⟨by simpa using Memory.found_error bad, _, rfl, one⟩
    | refused found refusal => exact ⟨by simp, _, rfl, one⟩
    | unrecorded linked w fault =>
      exact ⟨by simp, _, rfl, by simpa [List.countP_cons, Call.reads] using one⟩
    | pushed => exact absurd ⟨_, _, rfl, rfl⟩ unpushed

/-- A link that pushes a frame leaves the frames beneath its caller alone, logs nothing, and makes
at most one look-up and one further request, which closes nothing. -/
theorem link_with_push {reply : Reply} {s' : Session}
    (ran : exec (Memory.host.link config ⟨current :: beneath, extra⟩ b) m = (.ok reply, m'))
    (pushed : reply.session = some s') :
    (∃ top caller, s' = ⟨top :: caller :: beneath, extra⟩) ∧ reply.outgoingEdgeId ≠ none ∧
      reply.logs = [] ∧ ∃ calls, m'.journal = m.journal ++ calls ∧
        calls.countP Call.reads ≤ 1 ∧ calls.countP (!·.reads) ≤ 1 ∧
        ∀ c ∈ calls, c.closes = false := by
  have outcome := link_outcome config extra current beneath b m
  rw [ran] at outcome
  cases outcome with
  | refused r calls quiet => simp [Block.refuse] at pushed
  | again options groupId wanted held =>
    obtain rfl := Option.some.inj pushed
    exact ⟨⟨_, _, rfl⟩, Option.some_ne_none _, rfl, [], by simp [Memory.withIds], by simp⟩
  | other options flowId linked groupId p wanted named found held =>
    obtain rfl := Option.some.inj pushed
    refine ⟨⟨_, _, rfl⟩, Option.some_ne_none _, rfl,
      Memory.reading current.isPreview flowId ::
        (current.opening?.toList.map fun w => .ensureResult w.id), ?_, ?_⟩
    · simp [Memory.withIds, Memory.opened_calls]
    · have reads := Memory.reading_reads current.isPreview flowId
      have closes := Memory.reading_closes current.isPreview flowId
      cases current.opening? <;> simp_all [Call.reads, Call.closes]

/-- What a wish for another flow has found and pushed, if it pushes a frame. -/
theorem link_visited {options : LinkOptions} {flowId : String} {reply : Reply} {s' : Session}
    (wish : current.wish config (beneath.length + 1) b = .visit options flowId)
    (ran : exec (Memory.host.link config ⟨current :: beneath, extra⟩ b) m = (.ok reply, m'))
    (pushed : reply.session = some s') :
    ∃ linked groupId p, m.found current.isPreview flowId = .ok (some linked) ∧
      linked.existing (linked.entryGroup options.group?) = some groupId ∧
      p = current.pushOther beneath b
        (current.flow.mergesLinked options.mergesResults config.mergesByDefault) linked groupId
        m.ids ∧
      reply = p.reply beneath extra ∧ s' = ⟨p.top :: p.caller :: beneath, extra⟩ := by
  cases link_visit wish ran with
  | refused => cases pushed
  | pushed linked groupId p known held made =>
    obtain rfl := Option.some.inj pushed
    exact ⟨linked, groupId, p, known, held, made, rfl, rfl⟩

/-- Where a link pushes a frame there is room for it. -/
theorem room_of_push {reply : Reply}
    (ran : exec (Memory.host.link config ⟨current :: beneath, extra⟩ b) m = (.ok reply, m'))
    (pushed : reply.session ≠ none) :
    config.maxDepth = 0 ∨ beneath.length + 1 < config.maxDepth := by
  by_contra full
  have nowhere : ∀ options flowId, ¬ b.Leads config (beneath.length + 1) options flowId :=
    fun _ _ leads => full leads.room
  obtain ⟨r, wish⟩ := wish_of_not_leads current nowhere
  rw [exec_link_refuse wish] at ran
  obtain rfl := Except.ok.inj (Prod.mk.inj ran).1
  exact pushed rfl

end

/-- A link misses a frame if and only if there is none. Without an outage and with definitions that
can be decoded it pushes a frame if and only if it leads into an existing group, and else it goes on
by the block's own edge with one error in the log. Whatever fails, a link that pushes nothing makes
one look-up at most and leaves all but the journal alone; one that pushes a frame puts it upon the
caller, logs nothing, and makes one further request at most, which closes nothing. -/
theorem link_all_or_nothing (config : Config) (s : Session) (b : Block) {m m' : Memory}
    {r : Except Fault Reply} (ran : exec (Memory.host.link config s b) m = (r, m')) :
    (r = .error .noFrame ↔ s.frames = []) ∧
    (∀ current beneath, s.frames = current :: beneath → m.outage = .none → m.Decodes →
      (Pushes r ↔ current.Follows config m s.depth b) ∧
      (¬ current.Follows config m s.depth b →
        ∃ log, r = .ok ⟨b.outgoingEdgeId, none, [log]⟩ ∧ log.isError = true)) ∧
    (¬ Pushes r → m'.results = m.results ∧ m'.ids = m.ids ∧
      ∃ calls, m' = m.note calls ∧ calls.countP Call.reads ≤ 1) ∧
    ∀ reply s', r = .ok reply → reply.session = some s' →
      (∃ top caller, s' = ⟨top :: caller :: s.frames.tail, s.extra⟩) ∧ s'.depth = s.depth + 1 ∧
      reply.outgoingEdgeId ≠ none ∧ reply.logs = [] ∧
      ∃ calls, m'.journal = m.journal ++ calls ∧ calls.countP Call.reads ≤ 1 ∧
        calls.countP (!·.reads) ≤ 1 ∧ ∀ c ∈ calls, c.closes = false := by
  obtain ⟨frames, extra⟩ := s
  cases frames with
  | nil =>
    obtain ⟨rfl, rfl⟩ := Prod.mk.inj ran.symm
    exact ⟨by simp, by simp, fun _ => ⟨rfl, rfl, [], by simp, by simp⟩, by simp⟩
  | cons current beneath =>
    refine ⟨⟨fun missing => ?_, by simp⟩, ?_, fun h => ?_, ?_⟩
    · refine absurd missing (link_without_push ran ?_).1
      rintro ⟨reply, s', answer, -⟩
      simp [missing] at answer
    · rintro current beneath ⟨⟩ healthy decodes
      have refused (h : ¬ current.Follows config m (beneath.length + 1) b) :=
        refused_of_not_follows h healthy decodes ran
      refine ⟨⟨fun pushes => ?_, fun h => h.pushes healthy ran⟩, fun h => ?_⟩
      · by_contra h
        obtain ⟨refusal, answer⟩ := refused h
        exact not_pushes_refuse b refusal (answer ▸ pushes)
      · obtain ⟨refusal, answer⟩ := refused h
        exact ⟨refusal.log, answer, rfl⟩
    · obtain ⟨-, calls, rfl, one⟩ := link_without_push ran h
      exact ⟨rfl, rfl, calls, rfl, one⟩
    · rintro reply s' rfl pushed
      obtain ⟨⟨top, caller, rfl⟩, answers⟩ := link_with_push ran pushed
      exact ⟨⟨top, caller, rfl⟩, rfl, answers⟩

namespace Sample

/-- The stored definitions can be decoded. -/
theorem memory_decodes : memory.Decodes := by
  intro preview flowId f
  rcases memory_found preview flowId with h | h <;> simp [h]

/-- The frame that a session with the flow starts with. -/
def first : Frame := .root flow (some "r")

/-- A link to a flow that is not stored. -/
def stray : Block := link "stray" "nowhere" "q" false

end Sample

/-- The flow links to the survey, and not to a flow that is not stored. -/
theorem link_all_or_nothing_sample :
    Pushes (exec (Memory.host.link .default ⟨[Sample.first], []⟩ Sample.join) Sample.memory).1 ∧
    ∃ log, (exec (Memory.host.link .default ⟨[Sample.first], []⟩ Sample.stray) Sample.memory).1 =
      .ok ⟨none, none, [log]⟩ ∧ log.isError = true := by
  constructor
  · refine ((link_all_or_nothing .default ⟨[Sample.first], []⟩ Sample.join rfl).2.1 Sample.first []
      rfl rfl Sample.memory_decodes).1.mpr ?_
    refine ⟨⟨some "survey", some "q", some true⟩, "survey", ⟨rfl, rfl, by decide, .inl rfl⟩, ?_⟩
    rw [if_neg (by decide)]
    exact ⟨_, rfl, _, List.mem_cons_self, .inl ⟨rfl, by decide⟩⟩
  · refine ((link_all_or_nothing .default ⟨[Sample.first], []⟩ Sample.stray rfl).2.1 Sample.first []
      rfl rfl Sample.memory_decodes).2 ?_
    rintro ⟨options, flowId, leads, into⟩
    obtain rfl : (⟨some "nowhere", some "q", some false⟩ : LinkOptions) = options :=
      Except.ok.inj leads.readable
    obtain rfl : "nowhere" = flowId := Option.some.inj leads.named
    rw [if_neg (by decide)] at into
    obtain ⟨linked, found, -⟩ := into
    have unknown : Sample.memory.found false "nowhere" = .ok none := rfl
    cases unknown.symm.trans found

end Dialogue
