import Mathlib.Data.List.Nodup
import Dialogue.Proofs.Deciding
import Dialogue.Proofs.Subroutine

/-!
# Where a link leads, and where it returns

The edge that a link answers leads into the pushed frame, at the group where its flow is entered.
When the pushed frame is finished, the caller goes on behind the link block: by the block's own
edge, or else at the blocks after it, or else, if there are none, by no edge (`Landing`). All this
needs is that the ids drawn name no edge yet and that the blocks of the caller's flow can be told
apart by their ids (`link_lands`).
-/

namespace Dialogue

/-! ### Groups and blocks that can be told apart -/

/-- The groups of a flow have different ids, and so have its blocks. -/
structure Flow.Distinct (f : Flow) : Prop where
  groups : (f.groups.map (·.id)).Nodup
  blocks : (f.groups.flatMap fun g => g.blocks.map (·.id)).Nodup

theorem Group.holds_iff {g : Group} {id : String} :
    g.holds id = true ↔ ∃ b ∈ g.blocks, b.id = id := by
  simp [holds, positionOf?]

/-- Of entries with different keys, each is the first with its own. -/
theorem find?_of_distinct {α : Type} {key : α → String} {l : List α} {a : α}
    (distinct : (l.map key).Nodup) (h : a ∈ l) : l.find? (key · == key a) = some a := by
  obtain ⟨before, after, rfl⟩ := List.append_of_mem h
  rw [List.map_append, List.map_cons, List.nodup_append] at distinct
  have others : ∀ a' ∈ before, ¬ (key a' == key a) = true := fun a' ha' same =>
    distinct.2.2 (key a') (List.mem_map_of_mem ha') (key a) List.mem_cons_self (by simpa using same)
  rw [List.find?_append, List.find?_eq_none.mpr others]
  simp

namespace Flow.Distinct

variable {f f' : Flow} {g : Group}

theorem of_groups (h : f.Distinct) (same : f'.groups = f.groups) : f'.Distinct :=
  ⟨same ▸ h.groups, same ▸ h.blocks⟩

theorem group?_eq (h : f.Distinct) (hg : g ∈ f.groups) : f.group? g.id = some g :=
  find?_of_distinct h.groups hg

theorem block_ids (h : f.Distinct) (hg : g ∈ f.groups) : (g.blocks.map (·.id)).Nodup :=
  (List.nodup_flatMap.mp h.blocks).1 g hg

/-- A block is held by its own group. -/
theorem groupHolding?_eq (h : f.Distinct) (hg : g ∈ f.groups) {b : Block} (hb : b ∈ g.blocks) :
    f.groupHolding? b.id = some g := by
  obtain ⟨before, after, place⟩ := List.append_of_mem hg
  have apart := (List.nodup_flatMap.mp h.blocks).2
  rw [place, List.pairwise_append] at apart
  have others : ∀ g' ∈ before, ¬ g'.holds b.id = true := fun g' hg' holds => by
    obtain ⟨b', hb', same⟩ := Group.holds_iff.mp holds
    exact apart.2.2 g' hg' g List.mem_cons_self (List.mem_map_of_mem hb')
      (same ▸ List.mem_map_of_mem hb)
  have own : g.holds b.id = true := Group.holds_iff.mpr ⟨b, hb, rfl⟩
  rw [groupHolding?, place, List.find?_append, List.find?_eq_none.mpr others]
  simp [own]

end Flow.Distinct

section

variable {g : Group} {b : Block} {before after : List Block}

/-- The place of the first block with an id is told by the blocks before it. -/
theorem Group.positionOf?_of_first (place : g.blocks = before ++ b :: after)
    (first : ∀ a ∈ before, a.id ≠ b.id) : g.positionOf? b.id = some before.length := by
  have others : ∀ a ∈ before, (a.id == b.id) = false := by simpa using first
  rw [positionOf?, place, List.findIdx?_append, List.findIdx?_eq_none_iff.mpr others,
    List.findIdx?_cons]
  simp

theorem Group.cutFrom_of_first (place : g.blocks = before ++ b :: after)
    (first : ∀ a ∈ before, a.id ≠ b.id) :
    g.cutFrom (some b.id) = { g with blocks := b :: after } := by
  have position : (some b.id).bind g.positionOf? = some before.length :=
    positionOf?_of_first place first
  simp [cutFrom, position, place]

/-- Of blocks with different ids, each is the first with its own. -/
theorem Group.first_of_distinct (distinct : (g.blocks.map (·.id)).Nodup)
    (place : g.blocks = before ++ b :: after) : ∀ a ∈ before, a.id ≠ b.id := by
  rw [place, List.map_append, List.map_cons, List.nodup_append] at distinct
  exact fun a ha => distinct.2.2 a.id (List.mem_map_of_mem ha) b.id List.mem_cons_self

theorem Group.positionOf?_eq (distinct : (g.blocks.map (·.id)).Nodup)
    (place : g.blocks = before ++ b :: after) : g.positionOf? b.id = some before.length :=
  positionOf?_of_first place (first_of_distinct distinct place)

theorem Group.blockAfter?_eq (distinct : (g.blocks.map (·.id)).Nodup)
    (place : g.blocks = before ++ b :: after) : g.blockAfter? b.id = after.head? := by
  have next : g.blocks[before.length + 1]? = after.head? := by
    rw [place]
    simp [List.getElem?_append_right, List.head?_eq_getElem?]
  simp [blockAfter?, Group.positionOf?_eq distinct place, next]

theorem Group.cutFrom_eq (distinct : (g.blocks.map (·.id)).Nodup)
    (place : g.blocks = before ++ b :: after) :
    g.cutFrom (some b.id) = { g with blocks := b :: after } :=
  cutFrom_of_first place (first_of_distinct distinct place)

/-- An edge to a block leads to its group, cut to the block and those after it. -/
theorem Flow.Distinct.destination_eq {f : Flow} (h : f.Distinct) (hg : g ∈ f.groups)
    (place : g.blocks = before ++ b :: after) {e : Edge} (leads : e.target = ⟨g.id, some b.id⟩) :
    f.destination e = some { g with blocks := b :: after } := by
  simp [Flow.destination, leads, h.group?_eq hg, Group.cutFrom_eq (h.block_ids hg) place]

/-- Where a flow resumes behind a block without an edge of its own. -/
theorem Flow.Distinct.resumeTarget?_eq {f : Flow} (h : f.Distinct) (hg : g ∈ f.groups)
    (place : g.blocks = before ++ b :: after) (silent : b.outgoingEdgeId = none) :
    f.resumeTarget? b = after.head?.map fun a => ⟨g.id, some a.id⟩ := by
  have holder := h.groupHolding?_eq hg (b := b) (by simp [place])
  have behind := Group.blockAfter?_eq (h.block_ids hg) place
  unfold Flow.resumeTarget?
  simp only [silent, Option.isSome_none, Bool.false_eq_true, if_false, holder]
  cases after with
  | nil => simp_all
  | cons a rest => simp_all

end

/-! ### Edges under ids that are new -/

/-- No id that is still to come names an edge of a flow. -/
def IdSource.Misses (ids : IdSource) (f : Flow) : Prop := ∀ e ∈ f.edges, ids.Spent e.id

theorem IdSource.Misses.onward {a b : IdSource} {f : Flow} (h : a.Misses f) (hab : a.Onward b) :
    b.Misses f := fun e he => (h e he).onward hab

theorem IdSource.Misses.edge?_next {ids : IdSource} {f : Flow} (h : ids.Misses f) :
    f.edge? ids.next.1 = none := by
  refine List.find?_eq_none.mpr fun e he same => ?_
  have same : e.id = ids.id ids.drawn := by simpa [IdSource.next] using same
  exact h e he ids.drawn (Nat.le_refl _) same.symm

/-- An edge under a new id is found under it. -/
theorem Frame.edge?_withEdge {f : Frame} {ids : IdSource} (h : ids.Misses f.flow) (t : Target) :
    (some ids.next.1).bind (f.withEdge ⟨ids.next.1, .unset, t⟩).flow.edge? =
      some ⟨ids.next.1, .unset, t⟩ := by
  have absent : f.flow.edges.find? (·.id == ids.next.1) = none := h.edge?_next
  simp [Flow.edge?, withEdge, Flow.withEdge, List.find?_append, absent]

/-- One more edge does not change where a flow is entered. -/
theorem Flow.entryGroup_withEdge {f : Flow} {wanted : Option String} {groupId : String}
    (h : f.entryGroup wanted = some groupId) (e : Edge) :
    (f.withEdge e).entryGroup wanted = some groupId := by
  cases wanted with
  | some id => exact h
  | none =>
    have version : (f.withEdge e).schemaVersion = f.schemaVersion := rfl
    unfold Flow.entryGroup at h ⊢
    rw [version]
    cases modern : f.schemaVersion.isModern with
    | false => simpa [modern, Flow.withEdge] using h
    | true =>
      simp only [modern, if_true, Option.bind_eq_bind, Option.bind_eq_some_iff] at h ⊢
      obtain ⟨event, first, id, leads, edge, found, target⟩ := h
      refine ⟨event, first, id, leads, edge, ?_, target⟩
      have found : f.edges.find? (·.id == id) = some edge := found
      simp [Flow.edge?, Flow.withEdge, List.find?_append, found]

/-! ### Following an edge, and returning -/

section

variable {top parent : Frame} {beneath : List Frame} {extra : Entries} {edgeId : Option String}

/-- An edge of the active frame is followed without any request. -/
theorem exec_next_of_edge {edge : Edge} (h : edgeId.bind top.flow.edge? = some edge) (m : Memory) :
    exec (Memory.host.next ⟨top :: beneath, extra⟩ edgeId) m =
      (.ok ⟨top.flow.destination edge, ⟨top :: beneath, extra⟩⟩, m) := by
  have still : unwind top beneath edgeId = ⟨[], top.flow.destination edge, top :: beneath⟩ := by
    cases beneath with
    | nil => simp [unwind, h]
    | cons parent beneath => exact unwind_of_edge h
  rw [exec_next, still]
  rfl

/-- A frame without the edge is popped, and its return edge is followed in the frame beneath. -/
theorem exec_next_of_no_edge (h : edgeId.bind top.flow.edge? = none) {m : Memory}
    (healthy : m.outage = .none) :
    exec (Memory.host.next ⟨top :: parent :: beneath, extra⟩ edgeId) m =
      exec (Memory.host.next ⟨parent.resumed top :: beneath, extra⟩ top.returnEdgeId)
        (m.wrote top.closing?.toList) := by
  rw [← filterMap_closing_single]
  exact Memory.exec_next_past_healthy healthy extra (unwind_of_no_edge h)

@[simp] theorem Frame.resumed_edges (parent finished : Frame) :
    (parent.resumed finished).flow.edges = parent.flow.edges :=
  congrArg (·.flow.edges) (parent.shell_resumed finished)

end

/-! ### A frame pushed upon a paused caller -/

section

variable {f : Frame} {g : Group} {b : Block} {before after : List Block}

/-- A frame goes on at a block, whatever it resumes from. -/
theorem exec_next_at_block (distinct : f.flow.Distinct) (held : g ∈ f.flow.groups)
    (place : g.blocks = before ++ b :: after) {edgeId : Option String} {edge : Edge}
    (found : edgeId.bind f.flow.edge? = some edge) (leads : edge.target = ⟨g.id, some b.id⟩)
    (finished : Frame) (beneath : List Frame) (extra : Entries) (m : Memory) :
    exec (Memory.host.next ⟨f.resumed finished :: beneath, extra⟩ edgeId) m =
      (.ok ⟨some { g with blocks := b :: after }, ⟨f.resumed finished :: beneath, extra⟩⟩, m) := by
  have groups : (f.resumed finished).flow.groups = f.flow.groups :=
    (f.persists_resumed finished).groups
  have edges : (f.resumed finished).flow.edge? = f.flow.edge? := by
    funext id
    simp [Flow.edge?]
  rw [exec_next_of_edge (edges.symm ▸ found),
    (distinct.of_groups groups).destination_eq (groups.symm ▸ held) place leads]

/-- A caller with an edge of its own waits for that. -/
theorem Frame.pause_own (f : Frame) {own : String} (h : b.outgoingEdgeId = some own)
    (ids : IdSource) : f.pause b ids = ⟨f, some own, ids⟩ := by
  simp [pause, Flow.resumeTarget?, h]

/-- A caller without an edge of its own waits for the blocks behind the link. -/
theorem Frame.pause_behind (distinct : f.flow.Distinct) (held : g ∈ f.flow.groups) {a : Block}
    (place : g.blocks = before ++ b :: a :: after) (silent : b.outgoingEdgeId = none)
    (ids : IdSource) : f.pause b ids =
      ⟨f.withEdge ⟨ids.next.1, .unset, ⟨g.id, some a.id⟩⟩, some ids.next.1, ids.next.2⟩ := by
  simp [pause, distinct.resumeTarget?_eq held place silent, silent]

/-- A caller with no edge and no block left waits for nothing. -/
theorem Frame.pause_last (distinct : f.flow.Distinct) (held : g ∈ f.flow.groups)
    (place : g.blocks = before ++ [b]) (silent : b.outgoingEdgeId = none) (ids : IdSource) :
    f.pause b ids = ⟨f, none, ids⟩ := by
  simp [pause, distinct.resumeTarget?_eq held place silent, silent]

end

/-- How a session goes on once a link has pushed a frame upon its caller, for a link block with some
blocks behind it in its group. -/
structure Landing (current : Frame) (beneath : List Frame) (extra : Entries) (b : Block) (g : Group)
    (after : List Block) (m : Memory) (edgeId : Option String) (top caller : Frame)
    (target : Group) : Prop where
  /-- The edge that the link answers leads to a whole group. -/
  enters : exec (Memory.host.next ⟨top :: caller :: beneath, extra⟩ edgeId) m =
    (.ok ⟨some target, ⟨top :: caller :: beneath, extra⟩⟩, m)
  /-- By any other edge the pushed frame is popped, and the caller goes on by the return edge. -/
  returns : ∀ other, other.bind top.flow.edge? = none →
    (∃ n w, exec (Memory.host.next ⟨top :: caller :: beneath, extra⟩ other) m = (.ok n, w)) ∧
    exec (Memory.host.next ⟨top :: caller :: beneath, extra⟩ other) m =
      exec (Memory.host.next ⟨caller.resumed top :: beneath, extra⟩ top.returnEdgeId)
        (m.wrote top.closing?.toList)
  /-- That is the block's own edge, if it has one. -/
  own : ∀ e, b.outgoingEdgeId = some e → caller = current ∧ top.returnEdgeId = some e
  /-- Else it is a new edge of the caller, which leads to the blocks behind the link. -/
  behind : b.outgoingEdgeId = none → after ≠ [] →
    (∃ e, caller = current.withEdge e ∧ top.returnEdgeId = some e.id) ∧
    ∀ w, exec (Memory.host.next ⟨caller.resumed top :: beneath, extra⟩ top.returnEdgeId) w =
      (.ok ⟨some { g with blocks := after }, ⟨caller.resumed top :: beneath, extra⟩⟩, w)
  /-- Else there is none. -/
  last : b.outgoingEdgeId = none → after = [] → caller = current ∧ top.returnEdgeId = none
  /-- Then the caller is finished as well: it is popped, or nothing is left to run. -/
  finishes : b.outgoingEdgeId = none → after = [] → ∀ w : Memory, w.outage = .none →
    (∀ parent rest, beneath = parent :: rest →
      exec (Memory.host.next ⟨caller.resumed top :: beneath, extra⟩ top.returnEdgeId) w =
        exec (Memory.host.next ⟨parent.resumed (caller.resumed top) :: rest, extra⟩
          current.returnEdgeId) (w.wrote (caller.resumed top).closing?.toList)) ∧
    (beneath = [] →
      exec (Memory.host.next ⟨caller.resumed top :: beneath, extra⟩ top.returnEdgeId) w =
        (.ok ⟨none, ⟨[caller.resumed top], extra⟩⟩, w))

/-- A frame that is entered at a group, and returns as its caller waits, lands. -/
theorem Landing.of_pause (top : Frame) {current : Frame} {g target : Group} {b : Block}
    {before after : List Block} {groupId : String} {ids ids' : IdSource} {p : Pause} {m : Memory}
    (paused : p = current.pause b ids) (healthy : m.outage = .none)
    (distinct : current.flow.Distinct) (held : g ∈ current.flow.groups)
    (place : g.blocks = before ++ b :: after) (unused : ids.Misses current.flow)
    (unused' : ids'.Misses top.flow) (found : top.flow.group? groupId = some target)
    (back : top.returnEdgeId = p.returnEdgeId) (beneath : List Frame) (extra : Entries) :
    Landing current beneath extra b g after m (some ids'.next.1)
      (top.withEdge ⟨ids'.next.1, .unset, ⟨groupId, none⟩⟩) p.caller target := by
  have portal := Frame.edge?_withEdge unused' ⟨groupId, none⟩
  have whole : (top.withEdge ⟨ids'.next.1, .unset, ⟨groupId, none⟩⟩).flow.destination
      ⟨ids'.next.1, .unset, ⟨groupId, none⟩⟩ = some target := congrArg (Option.map _) found
  have returns : (top.withEdge ⟨ids'.next.1, .unset, ⟨groupId, none⟩⟩).returnEdgeId =
      p.returnEdgeId := back
  generalize top.withEdge ⟨ids'.next.1, .unset, ⟨groupId, none⟩⟩ = pushed at *
  refine ⟨?_, fun other h => ?_, fun e h => ?_, fun silent more => ?_, fun silent none => ?_,
    fun silent none w healthy => ?_⟩
  · rw [exec_next_of_edge portal, whole]
  · exact ⟨⟨_, _, Memory.exec_next_healthy healthy ..⟩, exec_next_of_no_edge h healthy⟩
  · rw [returns, paused, current.pause_own h]
    exact ⟨rfl, rfl⟩
  · obtain ⟨a, rest, rfl⟩ := List.exists_cons_of_ne_nil more
    obtain rfl := paused.trans (Frame.pause_behind distinct held place silent ids)
    refine ⟨⟨_, rfl, returns⟩, fun w => ?_⟩
    rw [returns]
    exact exec_next_at_block (f := current.withEdge ⟨ids.next.1, .unset, ⟨g.id, some a.id⟩⟩)
      (distinct.of_groups rfl) held (place.trans (List.append_cons ..))
      (Frame.edge?_withEdge unused ⟨g.id, some a.id⟩) rfl pushed beneath extra w
  · subst none
    rw [returns, paused, Frame.pause_last distinct held place silent]
    exact ⟨rfl, rfl⟩
  · subst none
    obtain rfl := paused.trans (Frame.pause_last distinct held place silent ids)
    rw [returns]
    refine ⟨?_, ?_⟩
    · rintro parent rest rfl
      have back : (current.resumed pushed).returnEdgeId = current.returnEdgeId :=
        (current.persists_resumed pushed).returnEdgeId
      rw [exec_next_of_no_edge rfl healthy, back]
    · rintro rfl
      rw [Memory.exec_next_healthy healthy]
      simp [unwind, Unwound.writes]

/-- Call and return meet. If a link pushes a frame, the edge that it answers leads into the frame at
the group where its flow is entered, and once the frame is finished the caller goes on behind the
link block. The frames beneath the caller stay as they are. -/
theorem link_lands (config : Config) {current : Frame} (beneath : List Frame) (extra : Entries)
    {m m' : Memory} (healthy : m.outage = .none) (unused : m.ids.Misses current.flow)
    (unusedStored : ∀ flowId f, m.found current.isPreview flowId = .ok (some f) → m.ids.Misses f)
    (distinct : current.flow.Distinct) {g : Group} (held : g ∈ current.flow.groups) {b : Block}
    {before after : List Block} (place : g.blocks = before ++ b :: after) {reply : Reply}
    {s' : Session}
    (linked : exec (Memory.host.link config ⟨current :: beneath, extra⟩ b) m = (.ok reply, m'))
    (pushed : reply.session = some s') :
    ∃ options top caller groupId target, b.linkOptions = .ok options ∧
      s' = ⟨top :: caller :: beneath, extra⟩ ∧ options.Enters top.flow groupId ∧
      top.flow.group? groupId = some target ∧
      Landing current beneath extra b g after m' reply.outgoingEdgeId top caller target := by
  have outcome := link_outcome config extra current beneath b m
  rw [linked] at outcome
  cases outcome with
  | refused r calls quiet => simp [Block.refuse] at pushed
  | again options groupId wanted held' =>
    obtain rfl := Option.some.inj pushed
    obtain ⟨target, found⟩ := Option.isSome_iff_exists.mp (Flow.existing_group held')
    obtain ⟨named, -⟩ := Flow.existing_eq_some.mp held'
    have healthy' : (m.withIds (current.pushAgain b groupId m.ids).ids).outage = .none := healthy
    exact ⟨options, _, _, groupId, target, wanted, rfl, .inl (LinkOptions.group?_eq_some.mp named),
      found, .of_pause ⟨current.flow, current.resultId, (current.pause b m.ids).returnEdgeId,
        current.answers, true⟩ rfl healthy' distinct held place unused
        (unused.onward (current.onward_pause b m.ids)) found rfl beneath extra⟩
  | other options flowId flow groupId p wanted named stored held' pushes =>
    subst pushes
    obtain rfl := Option.some.inj pushed
    obtain ⟨target, found⟩ := Option.isSome_iff_exists.mp (Flow.existing_group held')
    obtain ⟨entered, -⟩ := Flow.existing_eq_some.mp held'
    generalize current.flow.mergesLinked _ _ = merges
    have onward := (current.onward_pause b m.ids).trans (current.onward_resultFor merges _)
    have healthy' : (((m.note [Memory.reading current.isPreview flowId]).opened current).withIds
        (current.pushOther beneath b merges flow groupId m.ids).ids).outage = .none :=
      (Memory.opened_outage _ _).trans healthy
    have enters := Flow.entryGroup_withEdge
      (f := flow.withVariables (fill flow.vars (current :: beneath))) entered
    exact ⟨options, _, _, groupId, target, wanted, rfl, Flow.entryGroup_eq_some.mp (enters _),
      found, .of_pause ⟨flow.withVariables (fill flow.vars (current :: beneath)),
        (current.resultFor merges (current.pause b m.ids).ids).1,
        (current.pause b m.ids).returnEdgeId, if merges then current.answers else [], merges⟩
      rfl healthy' distinct held place unused ((unusedStored flowId flow stored).onward onward)
      found rfl beneath extra⟩

namespace Sample

theorem flow_distinct : flow.Distinct := ⟨by decide, by decide⟩

end Sample

/-- The flow links to the survey, with a fork behind the link. -/
theorem link_lands_sample :
    ∃ reply m' top caller target, exec (Memory.host.link .default ⟨[Sample.first], []⟩ Sample.join)
        Sample.memory = (.ok reply, m') ∧
      Landing Sample.first [] [] Sample.join ⟨"g", "", [Sample.loop, Sample.join, Sample.fork]⟩
        [Sample.fork] m' reply.outgoingEdgeId top caller target := by
  have unusedStored : ∀ flowId f, Sample.memory.found Sample.first.isPreview flowId = .ok (some f) →
      Sample.memory.ids.Misses f := by
    intro flowId f found e he
    rcases Sample.memory_found Sample.first.isPreview flowId with h | h
    · cases h.symm.trans found
    · cases h.symm.trans found
      simp at he
  obtain ⟨reply, m', linked, s', pushed⟩ : ∃ reply m', exec (Memory.host.link .default
      ⟨[Sample.first], []⟩ Sample.join) Sample.memory = (.ok reply, m') ∧
      ∃ s', reply.session = some s' := ⟨_, _, rfl, _, rfl⟩
  have unused : Sample.memory.ids.Misses Sample.first.flow := by
    intro e he
    simp [Sample.first, Frame.root, Sample.flow] at he
  have place : (⟨"g", "", [Sample.loop, Sample.join, Sample.fork]⟩ : Group).blocks =
      [Sample.loop] ++ Sample.join :: [Sample.fork] := rfl
  obtain ⟨options, top, caller, groupId, target, -, -, -, -, landing⟩ := link_lands .default [] []
    rfl unused unusedStored Sample.flow_distinct List.mem_cons_self place linked pushed
  exact ⟨reply, m', top, caller, target, linked, landing⟩

end Dialogue
