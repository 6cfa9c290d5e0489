import Dialogue.Proofs.Landing

/-!
# Entering a flow by a link or as the root

A modern flow is entered where the edge of its first event leads. A session that starts with the
flow follows that edge, to a block of a group if the edge names one. A link into the flow resolves
the edge to its group, and enters the group by an edge of its own. So both come to the same group,
which the first cuts to the block that its edge names (`entries_agree`). They agree altogether
unless that is a block behind the first.
-/

namespace Dialogue

/-! ### Groups that are cut -/

/-- To cut a group leaves it as it is unless the block is one behind the first. -/
theorem Group.cutFrom_eq_self_iff {g : Group} {blockId : Option String} :
    g.cutFrom blockId = g ↔ ∀ place, blockId.bind g.positionOf? = some place → place = 0 := by
  cases found : blockId.bind g.positionOf? with
  | none => simp [cutFrom, found]
  | some place =>
    have whole : g.cutFrom blockId = g ↔ g.blocks.drop place = g.blocks := by
      obtain ⟨id, title, blocks⟩ := g
      simp [cutFrom, found]
    have within : place < g.blocks.length := by
      obtain ⟨id, -, position⟩ := Option.bind_eq_some_iff.mp found
      exact (List.findIdx?_eq_some_iff_getElem.mp position).1
    rw [whole]
    constructor
    · intro same _ at_
      obtain rfl := Option.some.inj at_
      have length := congrArg List.length same
      rw [List.length_drop] at length
      omega
    · intro first
      rw [first place rfl, List.drop_zero]

/-! ### Where a stored flow starts -/

/-- A modern definition whose first event has an edge into a group of the flow that it stands for.
-/
structure Definition.Starts (d : Definition) (root : Flow) (edge : Edge) (g : Group) : Prop where
  decoded : d.toFlow none = .ok root
  modern : root.schemaVersion.isModern = true
  leads : (root.events.head?.bind (·.outgoingEdgeId)).bind root.edge? = some edge
  held : root.group? edge.target.groupId = some g

namespace Definition.Starts

variable {d : Definition} {root : Flow} {edge : Edge} {g : Group}

/-- Under any id the flow is entered at the group that its first event's edge leads to. -/
theorem entryGroup (h : d.Starts root edge g) (id : String) :
    ({ root with id := id } : Flow).entryGroup none = some edge.target.groupId := by
  obtain ⟨edgeId, event, found⟩ := Option.bind_eq_some_iff.mp h.leads
  obtain ⟨first, front, leads⟩ := Option.bind_eq_some_iff.mp event
  have modern : ({ root with id := id } : Flow).schemaVersion.isModern = true := h.modern
  have found : ({ root with id := id } : Flow).edge? edgeId = some edge := found
  simp [Flow.entryGroup, modern, front, leads, found]

/-- The flow has this group. -/
theorem existing (h : d.Starts root edge g) (id : String) :
    ({ root with id := id } : Flow).existing (({ root with id := id } : Flow).entryGroup none) =
      some edge.target.groupId := by
  rw [h.entryGroup id]
  have here : g.id = edge.target.groupId := by simpa using List.find?_some h.held
  exact Flow.existing_eq_some.mpr ⟨rfl, g, List.mem_of_find?_eq_some h.held, here⟩

/-- A session of either mode finds the flow, under some id. -/
theorem found (h : d.Starts root edge g) {m : Memory} {preview : Bool} {flowId : String}
    (stored : m.definition? preview flowId = some d) :
    ∃ id, m.found preview flowId = .ok (some { root with id := id }) := by
  unfold Memory.found
  rw [stored]
  cases preview with
  | true =>
    simp only [if_true, h.decoded]
    exact ⟨root.id, rfl⟩
  | false =>
    simp only [Bool.false_eq_true, if_false, toFlow_renamed h.decoded flowId]
    exact ⟨flowId, rfl⟩

end Definition.Starts

/-! ### Both ways in -/

/-- An edge under an id that no other has is found under it. -/
theorem Flow.edge?_withEdge_of_new {f : Flow} (e : Edge) (new : f.edge? e.id = none) :
    (f.withEdge e).edge? e.id = some e := by
  have absent : f.edges.find? (·.id == e.id) = none := new
  simp [edge?, withEdge, List.find?_append, absent]

section

variable {config : Config} {current : Frame} {beneath : List Frame} {extra : Entries} {b : Block}
  {options : LinkOptions} {flowId : String} {m : Memory} {d : Definition} {root : Flow}
  {edge : Edge} {g : Group}

/-- A link into the flow that pushes a frame pushes one for the flow, and enters the group. -/
theorem Definition.Starts.pushed (h : d.Starts root edge g)
    (across : current.wish config (beneath.length + 1) b = .visit options flowId)
    (anywhere : options.group? = none)
    (stored : m.definition? current.isPreview flowId = some d) {reply : Reply} {m' : Memory}
    {s' : Session}
    (ran : exec (Memory.host.link config ⟨current :: beneath, extra⟩ b) m = (.ok reply, m'))
    (pushed : reply.session = some s') :
    ∃ (top : Frame) (under : List Frame) (portal : String),
      s' = ⟨top.withEdge ⟨portal, .unset, ⟨edge.target.groupId, none⟩⟩ :: under, extra⟩ ∧
        reply.outgoingEdgeId = some portal ∧ top.flow.edges = root.edges ∧
      top.flow.groups = root.groups := by
  obtain ⟨linked, groupId, p, found', held, rfl, rfl, rfl⟩ := link_visited across ran pushed
  obtain ⟨id, found⟩ := h.found stored
  obtain rfl := Option.some.inj (Except.ok.inj (found.symm.trans found'))
  -- no group is named, so the link lands where the flow is entered
  rw [anywhere] at held
  obtain rfl := Option.some.inj ((h.existing id).symm.trans held)
  exact ⟨_, _, _, rfl, rfl, rfl, rfl⟩

/-- A link into the flow pushes a frame, or else the last of its requests is failed by the store. -/
theorem Definition.Starts.pushes_or_fails (h : d.Starts root edge g)
    (across : current.wish config (beneath.length + 1) b = .visit options flowId)
    (anywhere : options.group? = none)
    (stored : m.definition? current.isPreview flowId = some d) {r : Except Fault Reply}
    {m' : Memory}
    (ran : exec (Memory.host.link config ⟨current :: beneath, extra⟩ b) m = (r, m')) :
    Pushes r ∨ ∃ calls call fault, m.outage (m.journal ++ calls) call = some fault ∧
      r = .error (.store fault) ∧ m' = m.note (calls ++ [call]) := by
  obtain ⟨id, found⟩ := h.found stored
  cases link_visit across ran with
  | unanswered fault fails => exact .inr ⟨[], _, fault, by rwa [List.append_nil], rfl, rfl⟩
  | unrecorded linked w fault known fails => exact .inr ⟨[_], _, fault, fails, rfl, rfl⟩
  | pushed => exact .inl ⟨_, _, rfl, rfl⟩
  | undecoded f bad => cases found.symm.trans bad
  | refused known r seen landed =>
    obtain rfl := Except.ok.inj (found.symm.trans seen)
    have held : ({ root with id := id } : Flow).existing
        (({ root with id := id } : Flow).entryGroup options.group?) =
          some edge.target.groupId := by
      rw [anywhere]
      exact h.existing id
    cases (options.land_of_held held flowId).symm.trans landed

/-- The edge of such a link leads to the whole group, if no edge of the flow has its id. -/
theorem exec_next_entered {top : Frame} {portal groupId : String} (under : List Frame)
    (new : root.edge? portal = none) (held : root.group? groupId = some g)
    (edges : top.flow.edges = root.edges) (groups : top.flow.groups = root.groups) (w : Memory) :
    exec (Memory.host.next
        ⟨top.withEdge ⟨portal, .unset, ⟨groupId, none⟩⟩ :: under, extra⟩ (some portal)) w =
      (.ok ⟨some g, ⟨top.withEdge ⟨portal, .unset, ⟨groupId, none⟩⟩ :: under, extra⟩⟩, w) := by
  have new : top.flow.edge? portal = none := by rwa [Flow.edge?, edges]
  have held : top.flow.group? groupId = some g := by rwa [Flow.group?, groups]
  have leads : (some portal).bind (top.withEdge ⟨portal, .unset, ⟨groupId, none⟩⟩).flow.edge? =
      some ⟨portal, .unset, ⟨groupId, none⟩⟩ :=
    Flow.edge?_withEdge_of_new ⟨portal, .unset, ⟨groupId, none⟩⟩ new
  have whole : (top.withEdge ⟨portal, .unset, ⟨groupId, none⟩⟩).flow.destination
      ⟨portal, .unset, ⟨groupId, none⟩⟩ = some g := congrArg (Option.map _) held
  rw [exec_next_of_edge leads, whole]

/-- A session that starts with the flow comes to the group, cut to the block of the edge. -/
theorem Definition.Starts.exec_next_root (h : d.Starts root edge g) (resultId : Option String)
    (w : Memory) :
    exec (Memory.host.next (.start (.root root resultId))
        (root.events.head?.bind (·.outgoingEdgeId))) w =
      (.ok ⟨some (g.cutFrom edge.target.blockId), .start (.root root resultId)⟩, w) := by
  have cut : root.destination edge = some (g.cutFrom edge.target.blockId) :=
    congrArg (Option.map _) h.held
  rw [← cut]
  exact exec_next_of_edge h.leads w

end

/-- To enter a modern flow by a link and to start with it agree up to a cut. A link into the flow
that names no group pushes a frame, unless the store fails the last request that it makes, and the
edge that it answers leads to the whole group where the first event's edge leads. A session that
starts with the flow comes to the same group, with its id and its title, cut to the block that the
edge names. The two are equal exactly if that is not a block behind the first. -/
theorem entries_agree (config : Config) {current : Frame} (beneath : List Frame) (extra : Entries)
    {b : Block} {m : Memory} {options : LinkOptions} {flowId : String}
    (leads : b.Leads config (beneath.length + 1) options flowId)
    (across : ¬ (flowId = LinkOptions.currentFlow ∨ flowId = current.flow.id))
    (anywhere : ∀ groupId, ¬ options.NamesGroup groupId) {d : Definition}
    (stored : m.definition? current.isPreview flowId = some d) {root : Flow} {edge : Edge}
    {g : Group} (starts : d.Starts root edge g) :
    (∀ r m', exec (Memory.host.link config ⟨current :: beneath, extra⟩ b) m = (r, m') →
        Pushes r ∨ ∃ calls call fault, m.outage (m.journal ++ calls) call = some fault ∧
          r = .error (.store fault) ∧ m' = m.note (calls ++ [call])) ∧
      (∀ reply m' s' w,
        exec (Memory.host.link config ⟨current :: beneath, extra⟩ b) m = (.ok reply, m') →
        reply.session = some s' → reply.outgoingEdgeId.bind root.edge? = none →
          exec (Memory.host.next s' reply.outgoingEdgeId) w = (.ok ⟨some g, s'⟩, w)) ∧
      (∀ resultId w,
        exec (Memory.host.next (.start (.root root resultId))
            (root.events.head?.bind (·.outgoingEdgeId))) w =
          (.ok ⟨some (g.cutFrom edge.target.blockId), .start (.root root resultId)⟩, w)) ∧
      (g.cutFrom edge.target.blockId).id = g.id ∧
      (g.cutFrom edge.target.blockId).title = g.title ∧
      (g.cutFrom edge.target.blockId = g ↔
        ∀ place, edge.target.blockId.bind g.positionOf? = some place → place = 0) := by
  have wish : current.wish config (beneath.length + 1) b = .visit options flowId := by
    rw [leads.wish, if_neg across]
  have unnamed : options.group? = none := Option.eq_none_iff_forall_ne_some.mpr fun id named =>
    anywhere id (LinkOptions.group?_eq_some.mp named)
  refine ⟨fun r m' ran => starts.pushes_or_fails wish unnamed stored ran,
    fun reply m' s' w ran pushed new => ?_, starts.exec_next_root, rfl, rfl,
    Group.cutFrom_eq_self_iff⟩
  obtain ⟨top, under, portal, rfl, answered, edges, groups⟩ :=
    starts.pushed wish unnamed stored ran pushed
  rw [answered] at new ⊢
  exact exec_next_entered under new starts.held edges groups w

namespace Sample

/-- A group of two blocks. -/
def hall : Group := ⟨"hall", "Hall", [⟨"door", "text", none, none⟩, ⟨"desk", "text", none, none⟩]⟩

/-- The edge of an event, to the hall or to a block of it. -/
def entry (blockId : Option String) : Edge := ⟨"entry", ⟨none, none, none, none⟩, ⟨"hall", blockId⟩⟩

/-- A modern flow that is entered at the hall, or at a block of it. -/
def museum (blockId : Option String) : Flow :=
  ⟨"museum", some "6", [hall], [entry blockId], [⟨"arrive", "start", some "entry"⟩], [], .empty,
    none⟩

/-- The definition of the museum. -/
def museumStored (blockId : Option String) : Definition :=
  ⟨"museum", some "6", encode [hall], encode [entry blockId], .null,
    encode [(⟨"arrive", "start", some "entry"⟩ : Event)], .null⟩

theorem six : (Version.ofTag (some "6")).isModern = true := by decide +kernel

/-- The museum starts at the hall. -/
theorem museum_starts (blockId : Option String) :
    (museumStored blockId).Starts (museum blockId) (entry blockId) hall where
  decoded := by cases blockId <;> rfl
  modern := six
  leads := rfl
  held := rfl

/-- Links to the museum, into no group of its own. -/
def visit : Block :=
  ⟨"visit", Executor.linkType, none, some (.object [("typebotId", .string "museum")])⟩

/-- Stores in which the museum is published. -/
def museumOpen (blockId : Option String) : Memory :=
  (Memory.empty ids).publish "museum" (museumStored blockId)

theorem visit_leads : visit.Leads .default 1 ⟨some "museum", none, none⟩ "museum" :=
  ⟨rfl, rfl, by decide, .inl rfl⟩

theorem visit_anywhere (groupId : String) :
    ¬ LinkOptions.NamesGroup ⟨some "museum", none, none⟩ groupId := fun named => by cases named.1

/-- The edge that a link answers with a new state of the session. -/
def edgeInto : Except Fault Reply → Option String
  | .ok ⟨some edgeId, some _, _⟩ => some edgeId
  | _ => none

/-- The visit pushes a frame, and answers an edge that the museum does not have. -/
theorem visit_pushes {blockId : Option String} (h : blockId = none ∨ blockId = some "desk") :
    ∃ reply m s, exec (Memory.host.link .default ⟨[first], []⟩ visit) (museumOpen blockId) =
        (.ok reply, m) ∧ reply.session = some s ∧
      reply.outgoingEdgeId.bind (museum blockId).edge? = none := by
  have into : edgeInto (exec (Memory.host.link .default ⟨[first], []⟩ visit)
      (museumOpen blockId)).1 = some "i" := by rcases h with rfl | rfl <;> decide +kernel
  generalize exec (Memory.host.link .default ⟨[first], []⟩ visit) (museumOpen blockId) = r at into ⊢
  obtain ⟨_ | ⟨_ | edgeId, _ | s, logs⟩, m⟩ := r <;> cases into
  exact ⟨_, m, s, rfl, rfl, rfl⟩

end Sample

/-- If the first event's edge leads to the second block of the hall, a link comes to the whole hall
all the same, and only a session that starts with the flow is cut to that block. -/
theorem entries_differ_at_block :
    (Sample.museumStored (some "desk")).Starts (Sample.museum (some "desk"))
        (Sample.entry (some "desk")) Sample.hall ∧
      ∃ reply m s, exec (Memory.host.link .default ⟨[Sample.first], []⟩ Sample.visit)
          (Sample.museumOpen (some "desk")) = (.ok reply, m) ∧ reply.session = some s ∧
        reply.outgoingEdgeId.bind (Sample.museum (some "desk")).edge? = none ∧
        ∃ n n', exec (Memory.host.next s reply.outgoingEdgeId) m = (.ok n, m) ∧
          exec (Memory.host.next (.start (.root (Sample.museum (some "desk")) (some "r")))
            (some "entry")) m = (.ok n', m) ∧ n.group ≠ n'.group := by
  have starts := Sample.museum_starts (some "desk")
  obtain ⟨reply, m, s, ran, pushed, new⟩ := Sample.visit_pushes (.inr rfl)
  refine ⟨starts, reply, m, s, ran, pushed, new, ?_⟩
  obtain ⟨top, under, portal, rfl, answered, edges, groups⟩ :=
    starts.pushed rfl rfl rfl ran pushed
  rw [answered] at new ⊢
  refine ⟨_, _, exec_next_entered under new starts.held edges groups m,
    starts.exec_next_root (some "r") m, fun same => ?_⟩
  -- one group has both blocks, the other the desk alone
  have lengths : some 2 = some 1 := congrArg (Option.map fun g : Group => g.blocks.length) same
  cases lengths

/-- If it leads to the hall as a whole, both come to the whole hall. -/
theorem entries_agree_sample :
    ∃ reply m s, exec (Memory.host.link .default ⟨[Sample.first], []⟩ Sample.visit)
        (Sample.museumOpen none) = (.ok reply, m) ∧ reply.session = some s ∧
      exec (Memory.host.next s reply.outgoingEdgeId) m = (.ok ⟨some Sample.hall, s⟩, m) ∧
      exec (Memory.host.next (.start (.root (Sample.museum none) (some "r"))) (some "entry")) m =
        (.ok ⟨some Sample.hall, .start (.root (Sample.museum none) (some "r"))⟩, m) := by
  obtain ⟨reply, m, s, ran, pushed, new⟩ := Sample.visit_pushes (.inl rfl)
  have across : ¬ ("museum" = LinkOptions.currentFlow ∨ "museum" = Sample.first.flow.id) := by
    decide
  have stored : (Sample.museumOpen none).definition? Sample.first.isPreview "museum" =
      some (Sample.museumStored none) := rfl
  obtain ⟨-, linked, started, -, -, -⟩ := entries_agree .default [] [] Sample.visit_leads across
    Sample.visit_anywhere stored (Sample.museum_starts none)
  exact ⟨reply, m, s, ran, pushed, linked reply m s m ran pushed new, started (some "r") m⟩

end Dialogue
