import Mathlib.Data.List.Basic
import Mathlib.Data.String.Basic
import Dialogue.Store.Memory

/-!
# Tables and ledgers

A table is told by its look-ups. A value that is put under a key replaces the one that was there,
and values under different keys can be put in any order. If the keys increase, as they do where
values are only ever put, each entry is found under its key.
-/

namespace Dialogue

namespace Table

/-! ### Look-ups -/

section

variable {α : Type}

@[simp] theorem get?_empty (key : String) : (empty : Table α).get? key = none := rfl

theorem lookup_place_self (key : String) (v : α) : ∀ l, lookup key (place key v l) = some v
  | [] => by simp [place, lookup]
  | (k, u) :: rest => by
    unfold place
    split_ifs with h h'
    · simp [lookup]
    · simp [lookup]
    · simp [lookup, h, lookup_place_self key v rest]

theorem lookup_place_of_ne {key other : String} (v : α) (h : key ≠ other) :
    ∀ l, lookup other (place key v l) = lookup other l
  | [] => by simp [place, lookup, h]
  | (k, u) :: rest => by
    unfold place
    split_ifs with hk h'
    · simp [lookup, h, hk ▸ h]
    · simp [lookup, h]
    · simp [lookup, lookup_place_of_ne v h rest]

@[simp] theorem get?_put_self (t : Table α) (key : String) (v : α) :
    (t.put key v).get? key = some v := lookup_place_self key v t.entries

theorem get?_put_of_ne (t : Table α) {key other : String} (v : α) (h : key ≠ other) :
    (t.put key v).get? other = t.get? other := lookup_place_of_ne v h t.entries

theorem get?_putNew_of_ne (t : Table α) {key other : String} (v : α) (h : key ≠ other) :
    (t.putNew key v).get? other = t.get? other := by
  unfold putNew
  split
  · rfl
  · exact t.get?_put_of_ne v h

theorem get?_putNew_self (t : Table α) (key : String) (v : α) :
    (t.putNew key v).get? key = some ((t.get? key).getD v) := by
  unfold putNew
  cases h : t.get? key with
  | some u => simpa using h
  | none => simp

end

/-! ### Values that are put again -/

section

variable {α : Type} {key other : String}

theorem place_place (key : String) (v u : α) : ∀ l, place key v (place key u l) = place key v l
  | [] => by simp [place]
  | (k, w) :: rest => by
    simp only [place]
    split_ifs with same before
    · simp [place]
    · simp [place]
    · simp [place, same, before, place_place key v u rest]

/-- Values under two keys can be put in either order, whether or not the entries are sorted. -/
theorem place_comm_of_lt (h : key < other) (v u : α) :
    ∀ l, place key v (place other u l) = place other u (place key v l)
  | [] => by
    have ne : key ≠ other := h.ne
    simp only [place, if_neg ne, if_neg ne.symm, if_pos h, if_neg h.asymm]
  | (k, w) :: rest => by
    have ne : key ≠ other := h.ne
    rcases lt_trichotomy key k with before | rfl | behind
    · -- whatever the other key does to the list, the smaller key stays in front of it
      have first : ∃ k' w' rest', place other u ((k, w) :: rest) = (k', w') :: rest' ∧
          key < k' := by
        simp only [place]
        split_ifs
        · exact ⟨_, _, _, rfl, h⟩
        · exact ⟨_, _, _, rfl, h⟩
        · exact ⟨_, _, _, rfl, before⟩
      obtain ⟨k', w', rest', placed, above⟩ := first
      have left : place key v ((k, w) :: rest) = (key, v) :: (k, w) :: rest := by
        simp only [place, if_neg before.ne', if_pos before]
      have right : place other u ((key, v) :: (k, w) :: rest) =
          (key, v) :: place other u ((k, w) :: rest) := by
        rw [place, if_neg ne, if_neg h.asymm]
      rw [left, right, placed, place, if_neg above.ne', if_pos above]
    · simp only [place, if_neg ne, if_neg h.asymm, if_true]
    · have further : k < other := behind.trans h
      simp only [place, if_neg behind.ne, if_neg behind.asymm, if_neg further.ne,
        if_neg further.asymm, place_comm_of_lt h v u rest]

theorem put_put (t : Table α) (key : String) (v u : α) :
    (t.put key u).put key v = t.put key v := congrArg mk (place_place key v u t.entries)

theorem put_comm (t : Table α) (h : key ≠ other) (v u : α) :
    (t.put other u).put key v = (t.put key v).put other u := by
  rcases lt_or_gt_of_ne h with lt | gt
  · exact congrArg mk (place_comm_of_lt lt v u t.entries)
  · exact congrArg mk (place_comm_of_lt gt u v t.entries).symm

end

/-! ### Increasing keys -/

section

variable {α : Type} {key : String} {v : α} {l : List (String × α)}

/-- The keys of some entries increase. -/
def Ascending (l : List (String × α)) : Prop := l.Pairwise fun a b => a.1 < b.1

theorem ascending_cons {e : String × α} :
    Ascending (e :: l) ↔ (∀ e' ∈ l, e.1 < e'.1) ∧ Ascending l := List.pairwise_cons

theorem mem_place {e : String × α} : ∀ {l : List (String × α)},
    e ∈ place key v l → e = (key, v) ∨ e ∈ l
  | [], h => .inl (List.mem_singleton.mp h)
  | (k, u) :: rest, h => by
    simp only [place] at h
    split_ifs at h
    · exact (List.mem_cons.mp h).imp_right (List.mem_cons_of_mem _)
    · exact List.mem_cons.mp h
    · rcases List.mem_cons.mp h with rfl | h
      · exact .inr List.mem_cons_self
      · exact (mem_place h).imp_right (List.mem_cons_of_mem _)

theorem Ascending.place (key : String) (v : α) :
    ∀ {l : List (String × α)}, Ascending l → Ascending (place key v l)
  | [], _ => List.pairwise_singleton ..
  | (k, u) :: rest, h => by
    obtain ⟨first, later⟩ := ascending_cons.mp h
    simp only [Table.place]
    split_ifs with same before
    · exact ascending_cons.mpr ⟨same ▸ first, later⟩
    · refine ascending_cons.mpr ⟨fun e he => ?_, h⟩
      rcases List.mem_cons.mp he with rfl | he
      · exact before
      · exact before.trans (first e he)
    · refine ascending_cons.mpr ⟨fun e he => ?_, later.place key v⟩
      rcases mem_place he with rfl | he
      · exact lt_of_le_of_ne (not_lt.mp before) same
      · exact first e he

/-- Each key stands once among sorted entries, so a look-up finds every entry. -/
theorem Ascending.lookup_eq_some : ∀ {l : List (String × α)}, Ascending l →
    (lookup key l = some v ↔ (key, v) ∈ l)
  | [], _ => by simp [lookup]
  | (k, u) :: rest, h => by
    obtain ⟨first, later⟩ := ascending_cons.mp h
    simp only [lookup]
    split_ifs with same
    · subst same
      have once : (k, v) ∉ rest := fun there => (first _ there).false
      simp [once, eq_comm]
    · rw [later.lookup_eq_some]
      simp [Ne.symm same]

/-- To put what is there changes nothing. -/
theorem Ascending.place_of_lookup : ∀ {l : List (String × α)}, Ascending l →
    lookup key l = some v → Table.place key v l = l
  | [], _, here => nomatch here
  | (k, u) :: rest, h, here => by
    obtain ⟨first, later⟩ := ascending_cons.mp h
    simp only [lookup] at here
    simp only [Table.place]
    split_ifs at here with same
    · rw [if_pos same, ← same, Option.some.inj here]
    · have behind : k < key := first _ (later.lookup_eq_some.mp here)
      rw [if_neg same, if_neg behind.asymm, later.place_of_lookup here]

end

end Table

/-! ### Records of results -/

/-- A variable has a value unless it is null. -/
theorem Variable.hasValue_iff {v : Variable} :
    v.hasValue = true ↔ ∃ j, v.value = some j ∧ j ≠ .null := by
  unfold hasValue
  split <;> simp_all

namespace Ledger

@[simp] theorem get?_upsert_self (l : Ledger) (w : ResultWrite) :
    (l.upsert w).get? w.id = some w.row := l.get?_put_self w.id w.row

theorem get?_upsert_of_ne (l : Ledger) {w : ResultWrite} {r : String} (h : w.id ≠ r) :
    (l.upsert w).get? r = l.get? r := l.get?_put_of_ne w.row h

theorem get?_ensure_of_ne (l : Ledger) {w : ResultWrite} {r : String} (h : w.id ≠ r) :
    (l.ensure w).get? r = l.get? r := l.get?_putNew_of_ne w.row h

theorem get?_ensure_self (l : Ledger) (w : ResultWrite) :
    (l.ensure w).get? w.id = some ((l.get? w.id).getD w.row) := l.get?_putNew_self w.id w.row

end Ledger

end Dialogue
