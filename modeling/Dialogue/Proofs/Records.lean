import Dialogue.Proofs.RoundTrip

/-!
# What a record reads of its entries

The fields of a record are read apart from each other. A record is read from some entries if and
only if each field is read from the only entry under its key, or from what stands for it where there
is none (`Fields.read_eq_ok`). Neither the order of the entries nor any entry under another key
matters to what is read.
-/

namespace Dialogue

/-- The values that stand under a key, in order. -/
def Entries.under (entries : Entries) (key : String) : List Json :=
  (entries.filter (·.1 = key)).map (·.2)

section

variable {entries : Entries} {key : String} {j : Json}

@[simp] theorem Entries.under_nil (key : String) : Entries.under [] key = [] := rfl

theorem Entries.under_cons_self (key : String) (j : Json) (entries : Entries) :
    Entries.under ((key, j) :: entries) key = j :: entries.under key := by
  simp [under]

theorem Entries.under_cons_of_ne {other : String} (j : Json) (entries : Entries)
    (h : other ≠ key) : Entries.under ((other, j) :: entries) key = entries.under key := by
  simp [under, h]

theorem Entries.mem_under : j ∈ entries.under key ↔ (key, j) ∈ entries := by
  simp [under]

/-- No value stands under a key that no entry has. -/
theorem Entries.under_eq_nil (h : ∀ e ∈ entries, e.1 ≠ key) : entries.under key = [] := by
  simpa [under] using fun k j he => h (k, j) he

end

/-! ### Slots -/

/-- What becomes of a slot when some values are read into it one after the other. -/
def Shape.fill (s : Shape) (key : String) :
    Option s.Value → List Json → Except Mismatch (Option s.Value)
  | slot, [] => .ok slot
  | some _, _ :: _ => .error (.duplicate key)
  | none, j :: more => do s.fill key (some (← s.decode j)) more

section

variable {name : String} {presence : Presence} {s : Shape} {rest : Fields}

/-- The first field takes the entries under its key, and the other fields are read as if these were
not there. -/
theorem readEntries_cons_eq_ok (absent : name ∉ rest.keys) (entries : Entries)
    (slot slot' : Option s.Value) (slots slots' : rest.Slots) :
    readEntries (Fields.cons name presence s rest).put entries (slot, slots) =
        .ok (slot', slots') ↔
      s.fill name slot (entries.under name) = .ok slot' ∧
        readEntries rest.put entries slots = .ok slots' := by
  induction entries generalizing slot slots with
  | nil =>
    constructor
    · intro h
      obtain ⟨rfl, rfl⟩ := Prod.mk.inj (Except.ok.inj h)
      exact ⟨rfl, rfl⟩
    · rintro ⟨one, others⟩
      obtain rfl := Except.ok.inj one
      obtain rfl := Except.ok.inj others
      rfl
  | cons e more later =>
    obtain ⟨key, j⟩ := e
    by_cases here : key = name
    · subst here
      rw [Entries.under_cons_self]
      simp only [readEntries, Fields.put, if_pos, rest.put_of_not_mem absent]
      cases slot with
      | some v => exact ⟨fun h => (by cases h), fun h => (by cases h.1)⟩
      | none =>
        rw [Shape.fill]
        cases s.decode j with
        | error m => exact ⟨fun h => (by cases h), fun h => (by cases h.1)⟩
        | ok v => exact later (some v) slots
    · rw [Entries.under_cons_of_ne j more here]
      simp only [readEntries, Fields.put, if_neg here]
      cases rest.put key j slots with
      | none => exact later slot slots
      | some filled =>
        cases filled with
        | error m => exact ⟨fun h => (by cases h), fun h => (by cases h.2)⟩
        | ok next => exact later slot next

end

/-! ### Fields -/

/-- What is read as a field: the value of the only entry under its key or, if there is none, what
stands for the field when it is missing. -/
def Shape.Given (s : Shape) (key : String) (presence : Presence) (entries : Entries)
    (v : s.Value) : Prop :=
  match entries.under key with
  | [] => s.absent (.missing key) presence = .ok v
  | [j] => s.decode j = .ok v
  | _ => False

/-- What is read as each of some fields. -/
def Fields.Given : (fs : Fields) → Entries → fs.Value → Prop
  | .nil, _, _ => True
  | .cons key presence s rest, entries, (v, vs) =>
    s.Given key presence entries v ∧ rest.Given entries vs

section

variable {name : String} {presence : Presence} {s : Shape} {rest : Fields} {entries : Entries}
  {v : s.Value} {vs : rest.Value}

/-- The value of a field is what its slot holds, or else what stands for it. -/
theorem Shape.given_iff : s.Given name presence entries v ↔
    ∃ slot, s.fill name none (entries.under name) = .ok slot ∧
      (slot = some v ∨ slot = none ∧ s.absent (.missing name) presence = .ok v) := by
  unfold Given
  match entries.under name with
  | [] => simp [fill]
  | [j] => cases read : s.decode j <;> simp [fill, read, bind, Except.bind]
  | j :: j' :: more => cases read : s.decode j <;> simp [fill, read, bind, Except.bind]

@[inherit_doc Shape.given_iff]
theorem Fields.gather_cons_eq_ok {slot : Option s.Value} {slots : rest.Slots} :
    (Fields.cons name presence s rest).gather (slot, slots) = .ok (v, vs) ↔
      (slot = some v ∨ slot = none ∧ s.absent (.missing name) presence = .ok v) ∧
        rest.gather slots = .ok vs := by
  have parts (w : s.Value) : (w, ·) <$> rest.gather slots = .ok (v, vs) ↔
      w = v ∧ rest.gather slots = .ok vs := by
    cases rest.gather slots with
    | error m => exact ⟨nofun, nofun⟩
    | ok ws =>
      change Except.ok (w, ws) = Except.ok (v, vs) ↔ _
      rw [Except.ok.injEq, Except.ok.injEq]
      exact Prod.ext_iff
  cases slot with
  | some w =>
    rw [gather_some]
    exact (parts w).trans (by simp)
  | none =>
    rw [gather_none]
    cases s.absent (.missing name) presence with
    | error m => exact ⟨nofun, nofun⟩
    | ok w => exact (parts w).trans (by simp)

end

/-- A record is read from some entries if and only if each of its fields is. -/
theorem Fields.read_eq_ok : ∀ (fs : Fields), fs.sound = true → ∀ {entries : Entries} {v : fs.Value},
    readEntries fs.put entries fs.noneRead >>= fs.gather = .ok v ↔ fs.Given entries v
  | .nil, _, entries, v => by
    have skipped : readEntries Fields.nil.put entries Fields.nil.noneRead = .ok () :=
      @readEntries_others .nil entries () (by simp [keys])
    rw [skipped]
    exact ⟨fun _ => trivial, fun _ => rfl⟩
  | .cons name presence s rest, sound, entries, (v, vs) => by
    obtain ⟨absent, -, soundRest⟩ := sound_cons.mp sound
    have others := @read_eq_ok rest soundRest entries vs
    rw [Given, Shape.given_iff, ← others]
    constructor
    · intro h
      obtain ⟨⟨slot, slots⟩, read, gathered⟩ := bind_eq_ok h
      obtain ⟨filled, more⟩ := (readEntries_cons_eq_ok absent ..).mp read
      obtain ⟨one, later⟩ := gather_cons_eq_ok.mp gathered
      exact ⟨⟨slot, filled, one⟩, by rw [more]; exact later⟩
    · rintro ⟨⟨slot, filled, one⟩, h⟩
      obtain ⟨slots, more, gathered⟩ := bind_eq_ok h
      have read := (@readEntries_cons_eq_ok name presence s rest absent entries none slot
        _ slots).mpr ⟨filled, more⟩
      rw [noneRead, read]
      exact gather_cons_eq_ok.mpr ⟨one, gathered⟩

/-! ### Types with a wire format -/

section

variable {α : Type} [Wire α]

theorem decode_eq_ok {j : Json} {a : α} :
    decode α j = .ok a ↔ (Wire.shape α).decode j = .ok (Wire.toWire a) := by
  constructor
  · intro h
    obtain ⟨w, read, rfl⟩ := map_eq_ok h
    rw [read, Wire.toWire_ofWire]
  · intro h
    rw [decode, h]
    exact congrArg Except.ok (Wire.ofWire_toWire a)

/-- What some entries give for a member of a record. -/
def Entries.Gives (entries : Entries) (key : String) (presence : Presence) (a : α) : Prop :=
  (Wire.shape α).Given key presence entries (Wire.toWire a)

/-- A member that stands for a value when it is missing is read from its only entry, if any. -/
theorem Entries.gives_defaulted {entries : Entries} {key : String} {fallback : Json} {a : α} :
    entries.Gives key (.defaulted fallback) a ↔
      match entries.under key with
      | [] => decode α fallback = .ok a
      | [j] => decode α j = .ok a
      | _ => False := by
  unfold Gives Shape.Given
  match entries.under key with
  | [] => exact decode_eq_ok.symm
  | [j] => exact decode_eq_ok.symm
  | _ :: _ :: _ => exact Iff.rfl

end

end Dialogue
