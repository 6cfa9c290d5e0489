import Mathlib.Data.DFinsupp.WellFounded
import Mathlib.Data.Finset.Card
import Mathlib.Data.Prod.Lex
import Mathlib.Logic.Relation
import Dialogue.Proofs.Keeping

/-!
# A measure of what is left to run

In a flow whose groups do not lead back to themselves (`Flow.Acyclic`), following an edge leaves
fewer groups ahead. The potential of a frame is the number of groups ahead of the one that its next
edge leads to, and then the number of blocks to be executed there. The potentials of a stack are
compared from the deepest frame to the front (`Sinks`): a link lowers the potential of its caller,
whatever it pushes upon it, and a return drops potentials from the front. Stacks of bounded depth
cannot sink forever (`wellFounded_sinks`).
-/

namespace Dialogue

/-! ### Sinking lists -/

section

variable {α : Type}

/-- Some entries in front are replaced, and the entry behind them is lowered. -/
def Sinks [LT α] (l l' : List α) : Prop :=
  ∃ above x tail above' y, l = above ++ x :: tail ∧ l' = above' ++ y :: tail ∧ y < x

/-- What comes in front of the tail is passed over by counting from the end. -/
theorem getElem?_reverse_tail (above tail : List α) (x : α) {i : ℕ} (h : i < tail.length) :
    (above ++ x :: tail).reverse[i]? = tail.reverse[i]? := by
  rw [List.reverse_append, List.reverse_cons, List.append_assoc]
  exact List.getElem?_append_left (by rwa [List.length_reverse])

theorem getElem?_reverse_entry (above tail : List α) (x : α) :
    (above ++ x :: tail).reverse[tail.length]? = some x := by
  rw [List.reverse_append, List.reverse_cons, List.append_assoc,
    List.getElem?_append_right (by rw [List.length_reverse]), List.length_reverse, Nat.sub_self]
  rfl

/-- Lists of bounded length cannot sink forever. -/
theorem wellFounded_sinks [LT α] [WellFoundedLT α] [Inhabited α] (n : ℕ) :
    WellFounded fun l' l : List α => Sinks l l' ∧ l'.length ≤ n := by
  -- entries are counted from the end, so that those that stay keep their places
  let place (l : List α) (i : Fin n) : α := (l.reverse[i.val]?).getD default
  have lexicographic : WellFounded (Pi.Lex (· < ·) fun {_ : Fin n} (a b : α) => a < b) :=
    Pi.Lex.wellFounded (· < ·) fun _ => wellFounded_lt
  refine Subrelation.wf ?_ (InvImage.wf place lexicographic)
  rintro l' l ⟨⟨above, x, tail, above', y, rfl, rfl, lower⟩, short⟩
  have room : tail.length < n := by
    rw [List.length_append, List.length_cons] at short
    omega
  refine ⟨⟨tail.length, room⟩, fun j hj => ?_, ?_⟩
  · have before : j.val < tail.length := hj
    simp only [place]
    rw [getElem?_reverse_tail above tail x before, getElem?_reverse_tail above' tail y before]
  · simp only [place]
    rw [getElem?_reverse_entry, getElem?_reverse_entry]
    exact lower

end

/-! ### Flows that do not lead back -/

namespace Flow

/-- A block of one group answers an edge to another group. -/
def Leads (f : Flow) (a b : String) : Prop :=
  ∃ g ∈ f.groups, g.id = a ∧
    ∃ k ∈ g.blocks, ∃ e, k.outgoingEdgeId.bind f.edge? = some e ∧ e.target.groupId = b

/-- No group leads back to itself. -/
def Acyclic (f : Flow) : Prop := ∀ a, ¬ Relation.TransGen f.Leads a a

open Classical in
/-- The number of groups that can be reached from a group. -/
noncomputable def ahead (f : Flow) (a : String) : ℕ :=
  ((f.groups.map (·.id)).toFinset.filter fun b => Relation.TransGen f.Leads a b).card

/-- Fewer groups are ahead of a group that is led to. -/
theorem Acyclic.ahead_lt {f : Flow} (acyclic : f.Acyclic) {a b : String} (leads : f.Leads a b)
    {g : Group} (held : g ∈ f.groups) (same : g.id = b) : f.ahead b < f.ahead a := by
  classical
  unfold ahead
  refine Finset.card_lt_card (Finset.ssubset_iff_of_subset ?_ |>.mpr ⟨b, ?_, ?_⟩)
  · intro c hc
    rw [Finset.mem_filter] at hc ⊢
    exact ⟨hc.1, .head leads hc.2⟩
  · rw [Finset.mem_filter, List.mem_toFinset]
    exact ⟨List.mem_map.mpr ⟨g, held, same⟩, .single leads⟩
  · rw [Finset.mem_filter]
    exact fun hb => acyclic b hb.2

/-- The potential of a flow that goes on by an edge: the number of groups ahead of the one that the
edge leads to, and the number of blocks from there to the end of that group. -/
noncomputable def potential (f : Flow) (edgeId : Option String) : ℕ ×ₗ ℕ :=
  match (edgeId.bind f.edge?).bind f.destination with
  | some g => toLex (f.ahead g.id, g.blocks.length + 1)
  | none => toLex (0, 0)

theorem potential_of_destination {f : Flow} {edgeId : Option String} {g : Group}
    (h : (edgeId.bind f.edge?).bind f.destination = some g) :
    f.potential edgeId = toLex (f.ahead g.id, g.blocks.length + 1) := by
  simp only [potential, h]

/-- An edge leads to some of the last blocks of a group of the flow. -/
theorem destination_spec {f : Flow} {e : Edge} {g : Group} (h : f.destination e = some g) :
    ∃ whole ∈ f.groups, whole.id = e.target.groupId ∧ g.id = whole.id ∧
      g.blocks <:+ whole.blocks := by
  obtain ⟨whole, found, rfl⟩ := Option.map_eq_some_iff.mp h
  have same : whole.id = e.target.groupId := by simpa using List.find?_some found
  exact ⟨whole, List.mem_of_find?_eq_some found, same, rfl, List.drop_suffix ..⟩

/-- A flow with nothing left to run has the least potential. -/
theorem zero_lt_potential (a n : ℕ) : (toLex (0, 0) : ℕ ×ₗ ℕ) < toLex (a, n + 1) := by
  rw [Prod.Lex.toLex_lt_toLex]
  rcases Nat.eq_zero_or_pos a with rfl | some
  · exact .inr ⟨rfl, Nat.succ_pos n⟩
  · exact .inl some

/-- The edge of a block leads to a lower potential than any block of its group has. -/
theorem Acyclic.potential_lt {f : Flow} (acyclic : f.Acyclic) {g : Group} (held : g ∈ f.groups)
    {k : Block} (place : k ∈ g.blocks) (n : ℕ) :
    f.potential k.outgoingEdgeId < toLex (f.ahead g.id, n + 1) := by
  cases reached : (k.outgoingEdgeId.bind f.edge?).bind f.destination with
  | none =>
    simp only [potential, reached]
    exact zero_lt_potential _ n
  | some target =>
    obtain ⟨e, found, leads⟩ := Option.bind_eq_some_iff.mp reached
    obtain ⟨whole, inFlow, same, id, -⟩ := destination_spec leads
    have fewer := acyclic.ahead_lt ⟨g, held, rfl, k, place, e, found, same.symm⟩ inFlow rfl
    rw [potential_of_destination reached, id, Prod.Lex.toLex_lt_toLex]
    exact .inl fewer

end Flow

/-! ### Tame flows -/

/-- The groups and blocks of a flow can be told apart, no group leads back to itself, and no id to
come occurs in the flow. -/
structure Flow.Tame (ids : IdSource) (f : Flow) : Prop where
  distinct : f.Distinct
  acyclic : f.Acyclic
  unused : ids.Misses f
  unnamed : ∀ g ∈ f.groups, ∀ k ∈ g.blocks, ∀ id, k.outgoingEdgeId = some id → ids.Spent id

namespace Flow

variable {f : Flow} {ids : IdSource}

/-- An edge under a new id changes nothing for the blocks. -/
theorem Tame.bind_edge? (h : f.Tame ids) {g : Group} (held : g ∈ f.groups) {k : Block}
    (place : k ∈ g.blocks) (t : Target) :
    k.outgoingEdgeId.bind (f.withEdge ⟨ids.next.1, .unset, t⟩).edge? =
      k.outgoingEdgeId.bind f.edge? := by
  cases own : k.outgoingEdgeId with
  | none => rfl
  | some id =>
    have other : ids.next.1 ≠ id := by
      rintro rfl
      exact ids.draws_next.not_spent (h.unnamed g held k place _ own)
    simp [edge?, withEdge, List.find?_append, other]

theorem Tame.leads_withEdge (h : f.Tame ids) (t : Target) :
    (f.withEdge ⟨ids.next.1, .unset, t⟩).Leads = f.Leads := by
  funext a b
  refine propext ⟨?_, ?_⟩
  · rintro ⟨g, held, same, k, place, e, found, target⟩
    rw [h.bind_edge? held place] at found
    exact ⟨g, held, same, k, place, e, found, target⟩
  · rintro ⟨g, held, same, k, place, e, found, target⟩
    rw [← h.bind_edge? held place t] at found
    exact ⟨g, held, same, k, place, e, found, target⟩

theorem Tame.ahead_withEdge (h : f.Tame ids) (t : Target) (a : String) :
    (f.withEdge ⟨ids.next.1, .unset, t⟩).ahead a = f.ahead a := by
  unfold ahead
  rw [h.leads_withEdge t]
  rfl

theorem tame_kept : Flow.Kept Flow.Tame where
  onward onward h := ⟨h.distinct, h.acyclic, h.unused.onward onward,
    fun g hg k hk id own => (h.unnamed g hg k hk id own).onward onward⟩
  withVariables _ h := ⟨h.distinct.of_groups rfl, h.acyclic, h.unused, h.unnamed⟩
  withEdge {ids f t} fresh _ h := by
    refine ⟨h.distinct.of_groups rfl, ?_, h.unused.withEdge fresh t,
      fun g hg k hk id own => (h.unnamed g hg k hk id own).onward ids.onward_next⟩
    unfold Acyclic
    rw [h.leads_withEdge t]
    exact h.acyclic

end Flow

/-! ### The potentials of a stack -/

/-- The potentials of frames, each going on by the return edge of the one above it. -/
noncomputable def potentials : List Frame → Option String → List (ℕ ×ₗ ℕ)
  | [], _ => []
  | f :: beneath, edgeId => f.flow.potential edgeId :: potentials beneath f.returnEdgeId

theorem length_potentials : ∀ (frames : List Frame) (edgeId : Option String),
    (potentials frames edgeId).length = frames.length
  | [], _ => rfl
  | f :: beneath, _ => by
    rw [potentials, List.length_cons, List.length_cons, length_potentials beneath]

section

variable {current top parent : Frame} {beneath : List Frame} {g : Group} {k : Block}
  {ids : IdSource}

/-- The frame beneath has the potential that it had, once the one above is popped. -/
theorem potentials_resumed (parent top : Frame) (beneath : List Frame) (edgeId : Option String) :
    potentials (parent.resumed top :: beneath) edgeId = potentials (parent :: beneath) edgeId := by
  unfold Frame.resumed
  split <;> rfl

/-- A return that leads to a group drops potentials from the front. -/
theorem unwind_potentials : ∀ (beneath : List Frame) (top : Frame) (edgeId : Option String)
    {group : Group}, (unwind top beneath edgeId).group = some group →
    ∃ current rest edgeId', (unwind top beneath edgeId).frames = current :: rest ∧
      (edgeId'.bind current.flow.edge?).bind current.flow.destination = some group ∧
      potentials (current :: rest) edgeId' <:+ potentials (top :: beneath) edgeId
  | [], top, edgeId, _, leads => ⟨top, [], edgeId, rfl, leads, List.suffix_refl _⟩
  | parent :: beneath, top, edgeId, _, leads => by
    cases found : edgeId.bind top.flow.edge? with
    | some edge =>
      rw [unwind_of_edge found] at leads ⊢
      exact ⟨top, parent :: beneath, edgeId, rfl, by rw [found]; exact leads, List.suffix_refl _⟩
    | none =>
      rw [unwind_of_no_edge found] at leads ⊢
      obtain ⟨current, rest, edgeId', frames, target, drops⟩ :=
        unwind_potentials beneath (parent.resumed top) top.returnEdgeId leads
      rw [potentials_resumed] at drops
      exact ⟨current, rest, edgeId', frames, target, drops.trans (List.suffix_cons ..)⟩

/-- A caller that is left waiting has a lower potential than its group had before the link. -/
theorem Flow.Tame.pause_potential (tame : current.flow.Tame ids) (held : g ∈ current.flow.groups)
    {before after : List Block} (place : g.blocks = before ++ k :: after) {n : ℕ}
    (fewer : after.length < n) :
    (current.pause k ids).caller.flow.potential (current.pause k ids).returnEdgeId <
      toLex (current.flow.ahead g.id, n + 1) := by
  have inGroup : k ∈ g.blocks := place ▸ List.mem_append_right _ List.mem_cons_self
  cases own : k.outgoingEdgeId with
  | some id =>
    rw [current.pause_own own, ← own]
    exact tame.acyclic.potential_lt held inGroup n
  | none =>
    cases after with
    | nil =>
      rw [Frame.pause_last tame.distinct held place own]
      exact Flow.zero_lt_potential _ n
    | cons a after =>
      rw [Frame.pause_behind tame.distinct held place own]
      have portal := Frame.edge?_withEdge tame.unused ⟨g.id, some a.id⟩
      have distinct : (current.withEdge ⟨ids.next.1, .unset, ⟨g.id, some a.id⟩⟩).flow.Distinct :=
        tame.distinct.of_groups rfl
      have target := distinct.destination_eq (e := ⟨ids.next.1, .unset, ⟨g.id, some a.id⟩⟩) held
        (place.trans (List.append_cons ..)) rfl
      rw [Flow.potential_of_destination (by rw [portal]; exact target), Prod.Lex.toLex_lt_toLex]
      exact .inr ⟨tame.ahead_withEdge _ _, Nat.succ_lt_succ fewer⟩

end

end Dialogue
