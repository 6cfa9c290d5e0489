import Dialogue.Proofs.Landing

/-!
# Where a return lands

Following an edge comes to one step, whatever the height of the stack. The given edge is looked up
in the first frame, and in each frame further down the edge that the frame above returns through;
the return lands at the first frame that has the one looked up there, or at the deepest
(`LandsAt`). This place is told from the stack as it stands before the return. All frames above it
are popped, and each that has a result of its own closes it (`next_lands`).
-/

namespace Dialogue

/-- The part of a group that an edge leads to: the blocks from a given one on, or all when none is
given or there is no such block. -/
inductive Group.Cut (whole : Group) : Option String → Group → Prop
  | all {blockId : Option String}
    (unknown : ∀ id, blockId = some id → ∀ b ∈ whole.blocks, b.id ≠ id) : Cut whole blockId whole
  | block {before after : List Block} {b : Block} (place : whole.blocks = before ++ b :: after)
    (first : ∀ a ∈ before, a.id ≠ b.id) : Cut whole (some b.id) { whole with blocks := b :: after }

/-- The id of the edge that is looked up at a place of a stack: the given one at the front, and
further down the one that the frame above returns through. -/
def followed (edgeId : Option String) (frames : List Frame) : ℕ → Option String
  | 0 => edgeId
  | j + 1 => frames[j]?.bind (·.returnEdgeId)

/-- The edge that leads on from a place of a stack, if the frame has the one that is looked up. -/
def leads? (edgeId : Option String) (frames : List Frame) (j : ℕ) : Option Edge :=
  frames[j]?.bind fun f => (followed edgeId frames j).bind f.flow.edge?

/-- The place where a return lands: the first that an edge leads on from, or the last. -/
structure LandsAt (edgeId : Option String) (frames : List Frame) (k : ℕ) : Prop where
  within : k < frames.length
  passed : ∀ j < k, leads? edgeId frames j = none
  leads : k + 1 < frames.length → leads? edgeId frames k ≠ none

/-- The result that is closed when a frame is popped. -/
def Frame.closes? (f : Frame) : Option String := if f.merges then none else f.resultId

/-! ### Cutting a group -/

section

variable {whole g : Group} {blockId : Option String}

theorem Group.Cut.eq (h : whole.Cut blockId g) : g = whole.cutFrom blockId := by
  cases h with
  | all unknown =>
    have absent : blockId.bind whole.positionOf? = none := by
      refine Option.bind_eq_none_iff.mpr fun id given => List.findIdx?_eq_none_iff.mpr ?_
      simpa using unknown id given
    simp [cutFrom, absent]
  | block place first => exact (cutFrom_of_first place first).symm

theorem Group.exists_cut (whole : Group) (blockId : Option String) :
    ∃ g, whole.Cut blockId g := by
  cases blockId with
  | none => exact ⟨whole, .all nofun⟩
  | some id =>
    cases found : whole.blocks.find? (·.id == id) with
    | none =>
      refine ⟨whole, .all ?_⟩
      rintro _ ⟨⟩ b hb
      simpa using List.find?_eq_none.mp found b hb
    | some b =>
      obtain ⟨same, before, after, place, first⟩ := List.find?_eq_some_iff_append.mp found
      obtain rfl : b.id = id := by simpa using same
      exact ⟨_, .block place (by simpa using first)⟩

theorem Group.cut_iff : whole.Cut blockId g ↔ g = whole.cutFrom blockId := by
  refine ⟨Cut.eq, ?_⟩
  rintro rfl
  obtain ⟨g, cut⟩ := whole.exists_cut blockId
  exact cut.eq ▸ cut

end

/-! ### Places of a stack -/

section

variable {edgeId : Option String} {frames frames' : List Frame} {j k k' : ℕ}

theorem leads?_cons_succ (edgeId : Option String) (top : Frame) (beneath : List Frame) (j : ℕ) :
    leads? edgeId (top :: beneath) (j + 1) = leads? top.returnEdgeId beneath j := by
  cases j <;> rfl

/-- Edges are looked up in what a return never changes. -/
theorem leads?_shells (edgeId : Option String) (frames : List Frame) (j : ℕ) :
    leads? edgeId (frames.map Frame.shell) j = leads? edgeId frames j := by
  have back (i : ℕ) : (frames.map Frame.shell)[i]?.bind (·.returnEdgeId) =
      frames[i]?.bind (·.returnEdgeId) := by
    rw [List.getElem?_map, Option.bind_map]
    rfl
  have same : followed edgeId (frames.map Frame.shell) j = followed edgeId frames j := by
    cases j with
    | zero => rfl
    | succ i => exact back i
  rw [leads?, same, List.getElem?_map, Option.bind_map]
  rfl

theorem leads?_congr (same : frames'.map Frame.shell = frames.map Frame.shell) (j : ℕ) :
    leads? edgeId frames' j = leads? edgeId frames j := by
  rw [← leads?_shells, same, leads?_shells]

/-- Where a return lands does not hang on any variable or answer. -/
theorem LandsAt.congr (h : LandsAt edgeId frames k)
    (same : frames'.map Frame.shell = frames.map Frame.shell) : LandsAt edgeId frames' k := by
  have height : frames'.length = frames.length := by simpa using congrArg List.length same
  refine ⟨height ▸ h.within, fun j hj => ?_, fun above => ?_⟩
  · rw [leads?_congr same]
    exact h.passed j hj
  · rw [leads?_congr same]
    exact h.leads (height ▸ above)

theorem LandsAt.le (h : LandsAt edgeId frames k) (h' : LandsAt edgeId frames k') : k' ≤ k := by
  by_contra further
  have before : k < k' := Nat.lt_of_not_le further
  exact h.leads (Nat.lt_of_le_of_lt before h'.within) (h'.passed k before)

theorem LandsAt.unique (h : LandsAt edgeId frames k) (h' : LandsAt edgeId frames k') : k = k' :=
  Nat.le_antisymm (h'.le h) (h.le h')

end

/-! ### Landing -/

section

variable {edgeId : Option String} {frames frames' : List Frame} {top : Frame} {j k : ℕ}

/-- What has become of a stack when a return lands at a place of it: the frames above are popped,
and the one there may have other variables and answers. -/
structure Unwound.Landed (u : Unwound) (edgeId : Option String) (frames : List Frame) (k : ℕ) :
    Prop where
  lands : LandsAt edgeId frames k
  popped : u.popped.map Frame.shell = (frames.take k).map Frame.shell
  left : ∃ f g, frames[k]? = some f ∧ u.frames = g :: frames.drop (k + 1) ∧ g.shell = f.shell ∧
    u.group = (leads? edgeId frames k).bind f.flow.destination

/-- The edge of a frame leads a return there at once. -/
theorem LandsAt.front {beneath : List Frame}
    (leads : beneath ≠ [] → edgeId.bind top.flow.edge? ≠ none) :
    LandsAt edgeId (top :: beneath) 0 where
  within := Nat.succ_pos _
  passed := nofun
  leads above := leads (List.ne_nil_of_length_pos (Nat.lt_of_succ_lt_succ above))

/-- Where the first frame is popped, a return lands one place further down than it does from the
next. -/
theorem LandsAt.further {beneath : List Frame} (h : LandsAt top.returnEdgeId beneath k)
    (none : edgeId.bind top.flow.edge? = none) : LandsAt edgeId (top :: beneath) (k + 1) where
  within := Nat.succ_lt_succ h.within
  passed j hj := by
    cases j with
    | zero => exact none
    | succ j =>
      rw [leads?_cons_succ]
      exact h.passed j (Nat.lt_of_succ_lt_succ hj)
  leads above := by
    rw [leads?_cons_succ]
    exact h.leads (Nat.lt_of_succ_lt_succ above)

/-- What is handed over on the way makes no difference to where a return lands. -/
theorem unwind_landed : ∀ (beneath : List Frame) (top : Frame) (edgeId : Option String),
    ∃ k, (unwind top beneath edgeId).Landed edgeId (top :: beneath) k
  | [], top, edgeId => ⟨0, .front (absurd rfl), rfl, top, top, rfl, rfl, rfl, rfl⟩
  | parent :: beneath, top, edgeId => by
    cases found : edgeId.bind top.flow.edge? with
    | some edge =>
      rw [unwind_of_edge found]
      have leads : leads? edgeId (top :: parent :: beneath) 0 = some edge := found
      refine ⟨0, .front fun _ => by simp [found], rfl, top, top, rfl, rfl, rfl, ?_⟩
      rw [leads]
      rfl
    | none =>
      rw [unwind_of_no_edge found]
      obtain ⟨k, lands, popped, f', g, there, frames, shell, group⟩ :=
        unwind_landed beneath (parent.resumed top) top.returnEdgeId
      -- the parent may have taken something over, but it has the shell that it had
      have same : (parent :: beneath).map Frame.shell =
          (parent.resumed top :: beneath).map Frame.shell := by simp
      obtain ⟨f, here, alike⟩ : ∃ f, (parent :: beneath)[k]? = some f ∧ f.shell = f'.shell := by
        have places := congrArg (·[k]?) same
        simp only [List.getElem?_map, there] at places
        exact Option.map_eq_some_iff.mp places
      refine ⟨k + 1, (lands.congr same).further found, ?_, f, g, here, frames,
        shell.trans alike.symm, ?_⟩
      · rw [List.take_succ_cons, List.map_cons, List.map_cons, popped, List.map_take, List.map_take,
          same]
      · have destination : f.flow.destination = f'.flow.destination :=
          congrArg (·.flow.destination) alike
        rw [leads?_cons_succ, leads?_congr same, destination]
        exact group

theorem Frame.closes?_eq (f : Frame) : f.closes? = f.closing?.map (·.id) := by
  unfold closes? closing?
  split
  · rfl
  · simp [Function.comp_def]

/-- Results are closed as the frames tell before the return. -/
theorem Unwound.Landed.closings {u : Unwound} (h : u.Landed edgeId frames k) :
    u.writes.map (·.id) = (frames.take k).filterMap Frame.closes? := by
  have shells (fs : List Frame) :
      (fs.map Frame.shell).filterMap Frame.closes? = fs.filterMap Frame.closes? :=
    List.filterMap_map ..
  calc u.writes.map (·.id)
    _ = u.popped.filterMap Frame.closes? := by
      rw [Unwound.writes, List.map_filterMap]
      exact List.filterMap_congr fun f _ => f.closes?_eq.symm
    _ = ((frames.take k).map Frame.shell).filterMap Frame.closes? := by rw [← shells, h.popped]
    _ = (frames.take k).filterMap Frame.closes? := shells _

end

/-- A group that an edge leads to is the first one under the id of its target, cut from the block of
its target on. -/
theorem Flow.destination_eq_some {f : Flow} {e : Edge} {landed : Group} :
    f.destination e = some landed ↔
      ∃ whole, f.group? e.target.groupId = some whole ∧ whole.Cut e.target.blockId landed := by
  rw [destination, Option.map_eq_some_iff]
  simp only [Group.cut_iff, eq_comm]

/-- What following an edge comes to, for a stack of any height, if the ledger answers. There is one
place where the return lands: the first frame that has the edge looked up there, or the deepest one.
The frames above are popped, those beneath stay, and so does what the engine keeps without looking
at it; the frame at the place may have other variables and answers. The group is the one that the
edge found there leads to, cut from its block on, if the frame has it. Each popped frame that does
not merge and has a result closes it, from the front to the back, and there is no other request. The
place is the same whatever the variables and the answers of the frames are. -/
theorem next_lands (top : Frame) (beneath : List Frame) (extra : Entries) (edgeId : Option String)
    {m : Memory} (healthy : ∀ calls r, m.outage calls (.upsertResult r) = none) :
    (∃ k, LandsAt edgeId (top :: beneath) k) ∧
      ∀ k, LandsAt edgeId (top :: beneath) k →
        (∃ f g group m', (top :: beneath)[k]? = some f ∧ g.shell = f.shell ∧
          exec (Memory.host.next ⟨top :: beneath, extra⟩ edgeId) m =
            (.ok ⟨group, ⟨g :: (top :: beneath).drop (k + 1), extra⟩⟩, m') ∧
          (∀ landed, group = some landed ↔ ∃ edge whole,
            leads? edgeId (top :: beneath) k = some edge ∧
              f.flow.group? edge.target.groupId = some whole ∧
              whole.Cut edge.target.blockId landed) ∧
          m'.journal = m.journal ++
            (((top :: beneath).take k).filterMap Frame.closes?).map .upsertResult) ∧
        ∀ frames, frames.map Frame.shell = (top :: beneath).map Frame.shell →
          LandsAt edgeId frames k := by
  obtain ⟨k, landed⟩ := unwind_landed beneath top edgeId
  refine ⟨⟨k, landed.lands⟩, fun k' lands => ⟨?_, fun frames same => lands.congr same⟩⟩
  obtain rfl := lands.unique landed.lands
  obtain ⟨f, g, here, frames, shell, group⟩ := landed.left
  have ran := exec_next Memory.host top beneath extra edgeId m
  rcases Memory.exec_closeAll (unwind top beneath edgeId).popped m with
    closed | ⟨_, _, _, _, _, fails, _⟩
  · rw [closed, proceed_ok, frames, group] at ran
    refine ⟨f, g, _, _, here, shell, ran, fun landed => ?_, ?_⟩
    · simp only [Option.bind_eq_some_iff, Flow.destination_eq_some, exists_and_left]
    · rw [Memory.wrote_journal, ← landed.closings, List.map_map]
      rfl
  · cases (healthy _ _).symm.trans fails

namespace Sample

/-- Two blocks, and an edge to the second one. -/
def corridor : Flow :=
  ⟨"corridor", none, [⟨"c", "", [⟨"door", "text", none, none⟩, ⟨"window", "text", none, none⟩]⟩],
    [⟨"back", .unset, ⟨"c", some "window"⟩⟩], [], [], ⟨none, []⟩, none⟩

/-- Two frames of a fork without any edge, the first of which merges, above two of the corridor. -/
def alcoves : List Frame :=
  [⟨{ corridor with edges := [], vars := [⟨"v", "name", some (.string "Ada")⟩] }, some "s",
      some "away", [⟨"name", "Ada", none⟩], true⟩,
    ⟨{ corridor with edges := [] }, some "s", some "back", [], false⟩,
    ⟨corridor, some "r", none, [], true⟩, .root corridor (some "r")]

theorem alcoves_lands : LandsAt none alcoves 2 where
  within := by decide
  passed := by decide
  leads := by decide

end Sample

/-- Both frames of the fork are popped, which is closed once, and the corridor goes on at its second
block. -/
theorem next_lands_sample :
    ∃ g m', exec (Memory.host.next ⟨Sample.alcoves, []⟩ none) (.empty ⟨fun _ => "", 0⟩) =
        (.ok ⟨some ⟨"c", "", [⟨"window", "text", none, none⟩]⟩,
          ⟨[g, .root Sample.corridor (some "r")], []⟩⟩, m') ∧
      g.shell = ⟨Sample.corridor, some "r", none, [], true⟩ ∧
      m'.journal = [.upsertResult "s"] := by
  obtain ⟨⟨f, g, group, m', here, shell, ran, leads, journal⟩, -⟩ :=
    (next_lands _ _ [] none (m := .empty ⟨fun _ => "", 0⟩) fun _ _ => rfl).2 2 Sample.alcoves_lands
  cases here
  obtain rfl : group = some ⟨"c", "", [⟨"window", "text", none, none⟩]⟩ :=
    (leads _).mpr ⟨_, _, rfl, rfl, Group.cut_iff.mpr rfl⟩
  exact ⟨g, m', ran, shell, journal⟩

end Dialogue
