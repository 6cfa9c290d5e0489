import Mathlib.Data.List.Nodup
import Dialogue.Shape.Decode
import Dialogue.Shape.Wire

/-!
# Writing and reading again

What is written of a value reads as that value, unless the value holds something that the format
cannot tell apart: a null where nothing would be written as null as well, or an entry kept by an
open record under the name of one of its fields. Values without such parts are `Stable`. Whatever
was read is stable (`decode_stable`), and what is written of a stable value reads as it was
(`decode_encode`), if its shape names no field and no choice twice (`sound`).
-/

namespace Dialogue

variable {ε α β σ : Type}

theorem bind_eq_ok {x : Except ε α} {f : α → Except ε β} {b : β} (h : x >>= f = .ok b) :
    ∃ a, x = .ok a ∧ f a = .ok b := by
  cases x with
  | error e => cases h
  | ok a => exact ⟨a, rfl, h⟩

theorem bind_eq_error {x : Except ε α} {f : α → Except ε β} {e : ε} (h : x >>= f = .error e) :
    x = .error e ∨ ∃ a, x = .ok a ∧ f a = .error e := by
  cases x with
  | error e' => exact .inl (by cases h; rfl)
  | ok a => exact .inr ⟨a, rfl, h⟩

theorem map_eq_ok {x : Except ε α} {f : α → β} {b : β} (h : f <$> x = .ok b) :
    ∃ a, x = .ok a ∧ f a = b := by
  cases x with
  | error e => cases h
  | ok a => exact ⟨a, rfl, Except.ok.inj h⟩

/-! ### Stable values -/

mutual
/-- Whether the format can tell a value from all others. -/
def Shape.Stable : (s : Shape) → s.Value → Prop
  | .string, _ => True
  | .boolean, _ => True
  | .count, _ => True
  | .real, _ => True
  | .any, _ => True
  | .nullable _, none => True
  | .nullable s, some v => s.encode v ≠ .null ∧ s.Stable v
  | .list s, vs =>
    let items : List s.Value := vs
    ∀ v ∈ items, s.Stable v
  | .choice _, _ => True
  | .record _ false fs, v => fs.Stable v
  | .record _ true fs, (v, extra) => fs.Stable v ∧ ∀ e ∈ extra, e.1 ∉ fs.keys
/-- Whether the format can tell the values of all fields. -/
def Fields.Stable : (fs : Fields) → fs.Value → Prop
  | .nil, _ => True
  | .cons _ _ s rest, (v, vs) => s.Stable v ∧ rest.Stable vs
end

mutual
/-- Whether the shape names no field and no choice twice. -/
def Shape.sound : Shape → Bool
  | .nullable s => s.sound
  | .list s => s.sound
  | .choice names => decide names.Nodup
  | .record _ _ fs => fs.sound
  | _ => true
/-- Whether no field is named twice, in the record or within it. -/
def Fields.sound : Fields → Bool
  | .nil => true
  | .cons key _ s rest => !rest.keys.contains key && (s.sound && rest.sound)
end

theorem Fields.sound_cons {name : String} {presence : Presence} {s : Shape} {rest : Fields} :
    (Fields.cons name presence s rest).sound = true ↔
      name ∉ rest.keys ∧ s.sound = true ∧ rest.sound = true := by
  simp [sound]

/-! ### What is read is stable -/

theorem Json.asNullable_of_ne {j : Json} (given : j ≠ .null) (read : Json → Except Mismatch α) :
    j.asNullable read = some <$> read j := by
  cases j <;> first | rfl | exact absurd rfl given

/-- What is not read from null is not written as null. -/
theorem Shape.encode_ne_null : ∀ (s : Shape) {j : Json} {v : s.Value}, s.decode j = .ok v →
    j ≠ .null → s.encode v ≠ .null
  | .string, _, _, _, _ => nofun
  | .boolean, _, _, _, _ => nofun
  | .count, _, _, _, _ => nofun
  | .real, _, _, _, _ => nofun
  | .any, j, v, h, given => by
    obtain rfl : j = v := Except.ok.inj h
    exact given
  | .nullable s, j, v, h, given => by
    rw [Shape.decode, Json.asNullable_of_ne given] at h
    obtain ⟨v, read, rfl⟩ := map_eq_ok h
    exact s.encode_ne_null read given
  | .list s, _, _, _, _ => nofun
  | .choice _, _, _, _, _ => nofun
  | .record _ false fs, _, _, _, _ => nofun
  | .record _ true fs, _, _, _, _ => nofun

/-- Each slot holds nothing or a stable value. -/
def Fields.Held : (fs : Fields) → fs.Slots → Prop
  | .nil, _ => True
  | .cons _ _ s rest, (slot, slots) => (∀ v, slot = some v → s.Stable v) ∧ rest.Held slots

theorem Fields.held_noneRead : ∀ fs : Fields, fs.Held fs.noneRead
  | .nil => trivial
  | .cons _ _ _ rest => ⟨nofun, rest.held_noneRead⟩

/-- What survives each entry holds once all are read. -/
theorem readEntries_keeps {put : String → Json → σ → Option (Except Mismatch σ)} {P : σ → Prop}
    (step : ∀ key j slots filled, P slots → put key j slots = some (.ok filled) → P filled) :
    ∀ (entries : Entries) {slots filled : σ}, P slots →
      readEntries put entries slots = .ok filled → P filled
  | [], _, _, holds, h => by
    obtain rfl := Except.ok.inj h
    exact holds
  | (key, j) :: more, slots, filled, holds, h => by
    unfold readEntries at h
    cases read : put key j slots with
    | none =>
      rw [read] at h
      exact readEntries_keeps step more holds h
    | some result =>
      rw [read] at h
      obtain ⟨next, rfl, h⟩ := bind_eq_ok h
      exact readEntries_keeps step more (step key j slots next holds read) h

theorem mapM_keeps {read : α → Except ε β} {P : β → Prop} (step : ∀ a b, read a = .ok b → P b) :
    ∀ {as : List α} {bs : List β}, as.mapM read = .ok bs → ∀ b ∈ bs, P b
  | [], _, h, b, hb => by
    obtain rfl := Except.ok.inj h
    cases hb
  | a :: as, _, h, b, hb => by
    rw [List.mapM_cons] at h
    obtain ⟨first, one, h⟩ := bind_eq_ok h
    obtain ⟨rest, more, h⟩ := bind_eq_ok h
    obtain rfl := Except.ok.inj h
    rcases List.mem_cons.mp hb with rfl | hb
    · exact step a _ one
    · exact mapM_keeps step more b hb

/-- A record is read from the entries of an object. -/
theorem Shape.decode_object (name : String) (fs : Fields) (entries : Entries) :
    (Shape.record name false fs).decode (.object entries) =
      readEntries fs.put entries fs.noneRead >>= fs.gather := by
  rw [Shape.decode]
  rfl

@[inherit_doc decode_object]
theorem Shape.decode_openObject (name : String) (fs : Fields) (entries : Entries) :
    (Shape.record name true fs).decode (.object entries) =
      (·, fs.others entries) <$> (readEntries fs.put entries fs.noneRead >>= fs.gather) := by
  rw [Shape.decode]
  rfl

/-- What stands for a field that is missing. -/
def Shape.absent (s : Shape) (required : Mismatch) : Presence → Except Mismatch s.Value
  | .required => .error required
  | .optional => s.decode .null
  | .defaulted j => s.decode j

/-- What stands for a missing field has been read. -/
theorem Shape.absent_read {s : Shape} {required : Mismatch} {presence : Presence} {v : s.Value}
    (h : s.absent required presence = .ok v) : ∃ j, s.decode j = .ok v := by
  cases presence with
  | required => cases h
  | optional => exact ⟨_, h⟩
  | defaulted j => exact ⟨_, h⟩

section

variable (name : String) (presence : Presence) (s : Shape) (rest : Fields)

theorem Fields.gather_some (v : s.Value) (slots : rest.Slots) :
    (Fields.cons name presence s rest).gather (some v, slots) = (v, ·) <$> rest.gather slots := by
  rw [Fields.gather]
  cases presence <;> cases rest.gather slots <;> rfl

theorem Fields.gather_none (slots : rest.Slots) :
    (Fields.cons name presence s rest).gather (none, slots) =
      s.absent (.missing name) presence >>= fun v => (v, ·) <$> rest.gather slots := by
  cases presence <;> rfl

theorem Fields.positional_cons (tooShort : Nat → Mismatch) (j : Json) (left : List Json)
    (count : Nat) :
    (Fields.cons name presence s rest).positional tooShort (j :: left) count =
      s.decode j >>= fun v => (v, ·) <$> rest.positional tooShort left (count + 1) := by
  cases presence <;> rfl

theorem Fields.positional_nil (tooShort : Nat → Mismatch) (count : Nat) :
    (Fields.cons name presence s rest).positional tooShort [] count =
      s.absent (tooShort count) presence >>= fun v =>
        (v, ·) <$> rest.positional tooShort [] (count + 1) := by
  cases presence <;> rfl

end

mutual
/-- Whatever is read is stable. -/
theorem Shape.decode_stable : ∀ (s : Shape) {j : Json} {v : s.Value}, s.decode j = .ok v →
    s.Stable v
  | .string, _, _, _ => trivial
  | .boolean, _, _, _ => trivial
  | .count, _, _, _ => trivial
  | .real, _, _, _ => trivial
  | .any, _, _, _ => trivial
  | .nullable s, j, v, h => by
    rw [Shape.decode] at h
    by_cases given : j = .null
    · subst given
      obtain rfl := Except.ok.inj h
      trivial
    · -- only a null is read as a value that is written as null, and it has been read as nothing
      rw [Json.asNullable_of_ne given] at h
      obtain ⟨v, read, rfl⟩ := map_eq_ok h
      exact ⟨s.encode_ne_null read given, s.decode_stable read⟩
  | .list s, j, vs, h => by
    cases j with
    | array items => exact mapM_keeps (P := s.Stable) (fun _ _ read => s.decode_stable read) h
    | _ => cases h
  | .choice _, _, _, _ => trivial
  | .record name false fs, j, v, h => by
    cases j with
    | object entries =>
      rw [Shape.decode_object] at h
      obtain ⟨slots, read, gathered⟩ := bind_eq_ok h
      exact fs.gather_stable
        (readEntries_keeps fs.put_held entries fs.held_noneRead read) gathered
    | array items => exact fs.positional_stable h
    | _ => cases h
  | .record name true fs, j, v, h => by
    cases j with
    | object entries =>
      rw [Shape.decode_openObject] at h
      obtain ⟨values, inner, rfl⟩ := map_eq_ok h
      obtain ⟨slots, read, gathered⟩ := bind_eq_ok inner
      refine ⟨fs.gather_stable
        (readEntries_keeps fs.put_held entries fs.held_noneRead read) gathered, fun e he => ?_⟩
      simpa using (List.mem_filter.mp he).2
    | _ => cases h
theorem Fields.put_held : ∀ (fs : Fields) (key : String) (j : Json) (slots filled : fs.Slots),
    fs.Held slots → fs.put key j slots = some (.ok filled) → fs.Held filled
  | .nil, _, _, _, _, _, h => nomatch h
  | .cons name _ s rest, key, j, (slot, slots), filled, ⟨one, more⟩, h => by
    rw [Fields.put] at h
    by_cases here : key = name
    · rw [if_pos here] at h
      cases slot with
      | some v => cases h
      | none =>
        obtain ⟨v, read, rfl⟩ := map_eq_ok (Option.some.inj h)
        refine ⟨fun _ same => ?_, more⟩
        obtain rfl := Option.some.inj same
        exact s.decode_stable read
    · rw [if_neg here] at h
      obtain ⟨result, put, same⟩ := Option.map_eq_some_iff.mp h
      obtain ⟨next, rfl, rfl⟩ := map_eq_ok same
      exact ⟨one, rest.put_held key j slots next more put⟩
theorem Fields.gather_stable : ∀ (fs : Fields) {slots : fs.Slots} {v : fs.Value},
    fs.Held slots → fs.gather slots = .ok v → fs.Stable v
  | .nil, _, _, _, _ => trivial
  | .cons name presence s rest, (slot, slots), v, ⟨one, more⟩, h => by
    cases slot with
    | some v =>
      rw [Fields.gather_some] at h
      obtain ⟨values, gathered, rfl⟩ := map_eq_ok h
      exact ⟨one v rfl, rest.gather_stable more gathered⟩
    | none =>
      rw [Fields.gather_none] at h
      obtain ⟨value, absent, later⟩ := bind_eq_ok h
      obtain ⟨values, gathered, rfl⟩ := map_eq_ok later
      obtain ⟨j, read⟩ := Shape.absent_read absent
      exact ⟨s.decode_stable read, rest.gather_stable more gathered⟩
theorem Fields.positional_stable : ∀ (fs : Fields) {tooShort : Nat → Mismatch} {left : List Json}
    {count : Nat} {v : fs.Value}, fs.positional tooShort left count = .ok v → fs.Stable v
  | .nil, _, _, _, _, _ => trivial
  | .cons name presence s rest, tooShort, left, count, v, h => by
    cases left with
    | cons j left =>
      rw [Fields.positional_cons] at h
      obtain ⟨value, read, later⟩ := bind_eq_ok h
      obtain ⟨values, others, rfl⟩ := map_eq_ok later
      exact ⟨s.decode_stable read, rest.positional_stable others⟩
    | nil =>
      rw [Fields.positional_nil] at h
      obtain ⟨value, absent, later⟩ := bind_eq_ok h
      obtain ⟨values, others, rfl⟩ := map_eq_ok later
      obtain ⟨j, read⟩ := Shape.absent_read absent
      exact ⟨s.decode_stable read, rest.positional_stable others⟩
end

/-! ### What is written of a stable value is read again -/

theorem mapM_map_ok {write : β → α} {read : α → Except ε β} : ∀ {bs : List β},
    (∀ b ∈ bs, read (write b) = .ok b) → (bs.map write).mapM read = .ok bs
  | [], _ => rfl
  | b :: bs, h => by
    rw [List.map_cons, List.mapM_cons, h b List.mem_cons_self,
      mapM_map_ok fun b hb => h b (List.mem_cons_of_mem _ hb)]
    rfl

/-- A name is found at its place. -/
theorem chosen_get {names : List String} (distinct : names.Nodup) (i : Fin names.length) :
    chosen names (names.get i) = .ok i := by
  have found : names.finIdxOf? (names.get i) = some i :=
    List.finIdxOf?_eq_some_iff.mpr ⟨rfl, fun j before same =>
      Fin.ne_of_lt before ((List.Nodup.get_inj_iff distinct).mp same)⟩
  rw [chosen, found]

/-- The slots once all that is written of some values has been read. -/
def Fields.filled : (fs : Fields) → fs.Value → fs.Slots
  | .nil, _ => ()
  | .cons _ .optional s rest, (v, vs) => (if s.isNone v then none else some v, rest.filled vs)
  | .cons _ .required _ rest, (v, vs) => (some v, rest.filled vs)
  | .cons _ (.defaulted _) _ rest, (v, vs) => (some v, rest.filled vs)

theorem Fields.encode_keys : ∀ (fs : Fields) (v : fs.Value), ∀ e ∈ fs.encode v, e.1 ∈ fs.keys
  | .nil, _, _, he => by cases he
  | .cons key presence s rest, (v, vs), e, he => by
    have more (he : e ∈ rest.encode vs) : e.1 ∈ key :: rest.keys :=
      List.mem_cons_of_mem _ (rest.encode_keys vs e he)
    have written (he : e ∈ (key, s.encode v) :: rest.encode vs) : e.1 ∈ key :: rest.keys := by
      rcases List.mem_cons.mp he with rfl | he
      · exact List.mem_cons_self
      · exact more he
    cases presence with
    | required => exact written he
    | defaulted j => exact written he
    | optional =>
      rw [Fields.encode] at he
      split_ifs at he
      · exact more he
      · exact written he

theorem Fields.put_of_not_mem : ∀ (fs : Fields) {key : String} {j : Json} {slots : fs.Slots},
    key ∉ fs.keys → fs.put key j slots = none
  | .nil, _, _, _, _ => rfl
  | .cons name _ s rest, key, j, (slot, slots), other => by
    obtain ⟨first, others⟩ : key ≠ name ∧ key ∉ rest.keys := by simpa [Fields.keys] using other
    rw [Fields.put, if_neg first, rest.put_of_not_mem others]
    rfl

/-- Nothing becomes of entries that no field is for. -/
theorem readEntries_others {fs : Fields} : ∀ {entries : Entries} (slots : fs.Slots),
    (∀ e ∈ entries, e.1 ∉ fs.keys) → readEntries fs.put entries slots = .ok slots
  | [], _, _ => rfl
  | (key, j) :: more, slots, other => by
    rw [readEntries, Fields.put_of_not_mem fs (other _ List.mem_cons_self)]
    exact readEntries_others slots fun e he => other e (List.mem_cons_of_mem _ he)

theorem readEntries_append {put : String → Json → σ → Option (Except Mismatch σ)} :
    ∀ (entries more : Entries) (slots : σ), readEntries put (entries ++ more) slots =
      readEntries put entries slots >>= readEntries put more
  | [], _, _ => rfl
  | (key, j) :: entries, more, slots => by
    rw [List.cons_append, readEntries, readEntries]
    cases put key j slots with
    | none => exact readEntries_append entries more slots
    | some filled =>
      cases filled with
      | error m => rfl
      | ok next => exact readEntries_append entries more next

/-- Entries that are not for the first field are read into the slots of the others. -/
theorem readEntries_rest {name : String} {presence : Presence} {s : Shape} {rest : Fields}
    (slot : Option s.Value) : ∀ {entries : Entries} (slots : rest.Slots),
    (∀ e ∈ entries, e.1 ≠ name) →
      readEntries (Fields.cons name presence s rest).put entries (slot, slots) =
        (slot, ·) <$> readEntries rest.put entries slots
  | [], _, _ => rfl
  | (key, j) :: more, slots, other => by
    have later (slots : rest.Slots) :
        readEntries (Fields.cons name presence s rest).put more (slot, slots) =
          (slot, ·) <$> readEntries rest.put more slots :=
      readEntries_rest slot slots fun e he => other e (List.mem_cons_of_mem _ he)
    simp only [readEntries, Fields.put, if_neg (other _ List.mem_cons_self)]
    cases rest.put key j slots with
    | none => exact later slots
    | some filled =>
      cases filled with
      | error m => rfl
      | ok next => exact later next

/-- A value that is the nothing of its shape is read from null. -/
theorem Shape.decode_null_of_isNone : ∀ {s : Shape} {v : s.Value}, s.isNone v = true →
    s.decode .null = .ok v
  | .nullable s, none, _ => by
    rw [Shape.decode]
    rfl

/-- The slots that are filled are gathered to the values. -/
theorem Fields.gather_filled : ∀ (fs : Fields) (v : fs.Value), fs.gather (fs.filled v) = .ok v
  | .nil, _ => rfl
  | .cons name presence s rest, (v, vs) => by
    have some : (Fields.cons name presence s rest).gather (some v, rest.filled vs) =
        .ok (v, vs) := by
      rw [Fields.gather_some, rest.gather_filled vs]
      rfl
    cases presence with
    | required => exact some
    | defaulted j => exact some
    | optional =>
      rw [Fields.filled]
      split_ifs with nothing
      · rw [Fields.gather_none, Shape.absent, Shape.decode_null_of_isNone nothing,
          rest.gather_filled vs]
        rfl
      · exact some

/-- Behind the fields of an open record stand the entries that it has kept. -/
theorem Fields.others_encode (fs : Fields) (v : fs.Value) {extra : Entries}
    (other : ∀ e ∈ extra, e.1 ∉ fs.keys) : fs.others (fs.encode v ++ extra) = extra := by
  rw [Fields.others, List.filter_append, List.filter_eq_nil_iff.mpr, List.nil_append,
    List.filter_eq_self.mpr]
  · intro e he
    simpa using other e he
  · intro e he
    simpa using fs.encode_keys v e he

mutual
/-- What is written of a stable value reads as it was. -/
theorem Shape.decode_encode : ∀ (s : Shape), s.sound = true → ∀ {v : s.Value}, s.Stable v →
    s.decode (s.encode v) = .ok v
  | .string, _, _, _ => rfl
  | .boolean, _, _, _ => rfl
  | .count, _, n, _ => rfl
  | .real, _, _, _ => rfl
  | .any, _, _, _ => rfl
  | .nullable s, _, none, _ => by
    rw [Shape.decode]
    rfl
  | .nullable s, sound, some v, ⟨given, stable⟩ => by
    rw [Shape.encode, Shape.decode, Json.asNullable_of_ne given, s.decode_encode sound stable]
    rfl
  | .list s, sound, vs, stable => by
    rw [Shape.encode, Shape.decode]
    exact mapM_map_ok fun v hv => s.decode_encode sound (stable v hv)
  | .choice names, sound, i, _ => chosen_get (of_decide_eq_true sound) i
  | .record name false fs, sound, v, stable => by
    rw [Shape.encode, Shape.decode_object, fs.read_encode sound stable]
    exact fs.gather_filled v
  | .record name true fs, sound, (v, extra), ⟨stable, others⟩ => by
    have read : readEntries fs.put (fs.encode v ++ extra) fs.noneRead = .ok (fs.filled v) := by
      rw [readEntries_append, fs.read_encode sound stable]
      exact readEntries_others _ others
    rw [Shape.encode, Shape.decode_openObject, read, fs.others_encode v others]
    exact congrArg (Functor.map (·, extra)) (fs.gather_filled v)
theorem Fields.read_encode : ∀ (fs : Fields), fs.sound = true → ∀ {v : fs.Value}, fs.Stable v →
    readEntries fs.put (fs.encode v) fs.noneRead = .ok (fs.filled v)
  | .nil, _, _, _ => rfl
  | .cons name presence s rest, sound, (v, vs), ⟨one, others⟩ => by
    obtain ⟨absent, sound, soundRest⟩ := Fields.sound_cons.mp sound
    -- no entry of a later field is taken for one of the first
    have apart : ∀ e ∈ rest.encode vs, e.1 ≠ name := fun e he same =>
      absent (same ▸ rest.encode_keys vs e he)
    have more (slot : Option s.Value) :
        readEntries (Fields.cons name presence s rest).put (rest.encode vs)
          (slot, rest.noneRead) = .ok (slot, rest.filled vs) := by
      rw [readEntries_rest slot rest.noneRead apart, rest.read_encode soundRest others]
      rfl
    have written : readEntries (Fields.cons name presence s rest).put
        ((name, s.encode v) :: rest.encode vs) (none, rest.noneRead) =
          .ok (some v, rest.filled vs) := by
      simp only [readEntries, Fields.put, if_pos, s.decode_encode sound one]
      exact more (some v)
    cases presence with
    | required => exact written
    | defaulted j => exact written
    | optional =>
      rw [Fields.encode, Fields.filled]
      split_ifs
      · exact more none
      · exact written
end

/-! ### Shapes whose values are all stable -/

/-- Whether no value of the shape is written as null. -/
def Shape.visible : Shape → Bool
  | .any => false
  | .nullable _ => false
  | _ => true

theorem Shape.encode_ne_null_of_visible : ∀ {s : Shape}, s.visible = true → ∀ (v : s.Value),
    s.encode v ≠ .null
  | .string, _, _ => nofun
  | .boolean, _, _ => nofun
  | .count, _, _ => nofun
  | .real, _, _ => nofun
  | .list _, _, _ => nofun
  | .choice _, _, _ => nofun
  | .record _ false _, _, _ => nofun
  | .record _ true _, _, _ => nofun

mutual
/-- Whether all values of the shape are stable: nothing is open, and no null hides in another. -/
def Shape.plain : Shape → Bool
  | .nullable s => s.visible && s.plain
  | .list s => s.plain
  | .record _ false fs => fs.plain
  | .record _ true _ => false
  | _ => true
@[inherit_doc Shape.plain]
def Fields.plain : Fields → Bool
  | .nil => true
  | .cons _ _ s rest => s.plain && rest.plain
end

mutual
theorem Shape.stable_of_plain : ∀ (s : Shape), s.plain = true → ∀ v : s.Value, s.Stable v
  | .string, _, _ => trivial
  | .boolean, _, _ => trivial
  | .count, _, _ => trivial
  | .real, _, _ => trivial
  | .any, _, _ => trivial
  | .nullable _, _, none => trivial
  | .nullable s, plain, some v => by
    obtain ⟨visible, plain⟩ : s.visible = true ∧ s.plain = true := by
      simpa [Shape.plain] using plain
    exact ⟨Shape.encode_ne_null_of_visible visible v, s.stable_of_plain plain v⟩
  | .list s, plain, _ => fun v _ => s.stable_of_plain plain v
  | .choice _, _, _ => trivial
  | .record _ false fs, plain, v => fs.stable_of_plain plain v
theorem Fields.stable_of_plain : ∀ (fs : Fields), fs.plain = true → ∀ v : fs.Value, fs.Stable v
  | .nil, _, _ => trivial
  | .cons _ _ s rest, plain, (v, vs) => by
    obtain ⟨one, others⟩ : s.plain = true ∧ rest.plain = true := by
      simpa [Fields.plain] using plain
    exact ⟨s.stable_of_plain one v, rest.stable_of_plain others vs⟩
end

/-! ### Types with a wire format -/

section

variable [Wire α]

/-- Whether the format can tell the value from all others. -/
def Wire.Stable (a : α) : Prop := (Wire.shape α).Stable (Wire.toWire a)

/-- Whatever is read is stable. -/
theorem stable_of_decode {j : Json} {a : α} (h : decode α j = .ok a) : Wire.Stable a := by
  obtain ⟨w, read, rfl⟩ := map_eq_ok h
  rw [Wire.Stable, Wire.toWire_ofWire]
  exact (Wire.shape α).decode_stable read

/-- What is written of a stable value reads as it was. -/
theorem decode_encode (sound : (Wire.shape α).sound = true) {a : α} (stable : Wire.Stable a) :
    decode α (encode a) = .ok a := by
  rw [decode, encode, (Wire.shape α).decode_encode sound stable]
  exact congrArg Except.ok (Wire.ofWire_toWire a)

theorem Wire.stable_of_plain (plain : (Wire.shape α).plain = true) (a : α) : Wire.Stable a :=
  (Wire.shape α).stable_of_plain plain (Wire.toWire a)

theorem Wire.stable_list {as : List α} : Wire.Stable as ↔ ∀ a ∈ as, Wire.Stable a := by
  change (∀ w ∈ as.map Wire.toWire, (Wire.shape α).Stable w) ↔ _
  rw [List.forall_mem_map]
  rfl

theorem Wire.stable_nil : Wire.Stable ([] : List α) := Wire.stable_list.mpr fun _ h => by cases h

theorem Wire.stable_none : Wire.Stable (none : Option α) := trivial

end

end Dialogue
