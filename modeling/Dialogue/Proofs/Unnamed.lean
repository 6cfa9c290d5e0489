import Dialogue.Proofs.Deeds
import Dialogue.Proofs.Records
import Dialogue.Session.Wire

/-!
# Entries that the format does not name

An open record keeps the entries that it has no field for, and a closed one skips them, wherever in
a session it stands (`unnamed_kept_or_skipped`). A place in a session is told by a path and by all
that stands around it (`Shape.Site`). Both halves go from the record outwards: what is read of a
whole hangs on what is read of the part, and what is written of a whole has the part at the same
path.
-/

namespace Dialogue

variable {σ : Type}

/-! ### Fields by key and by place -/

/-- The shape of the field with a key. -/
def Fields.shape? : Fields → String → Option Shape
  | .nil, _ => none
  | .cons name _ s rest, key => if name = key then some s else rest.shape? key

/-- The field at a place, with its key. -/
def Fields.item? : Fields → Nat → Option (String × Shape)
  | .nil, _ => none
  | .cons name _ s _, 0 => some (name, s)
  | .cons _ _ _ rest, i + 1 => rest.item? i

/-- What is read as the field with a key, with its shape. -/
def Fields.value? : (fs : Fields) → fs.Value → String → Option (Σ s : Shape, s.Value)
  | .nil, _, _ => none
  | .cons name _ s rest, (v, vs), key => if name = key then some ⟨s, v⟩ else rest.value? vs key

section

variable {key : String} {s : Shape} {j j' : Json} {entries : Entries}

/-- The field with a key is the first one, or it is one of the rest under another key. -/
theorem Fields.shape?_cons_eq_some {name : String} {presence : Presence} {t : Shape}
    {rest : Fields} : (Fields.cons name presence t rest).shape? key = some s ↔
      name = key ∧ t = s ∨ name ≠ key ∧ rest.shape? key = some s := by
  rw [shape?]
  split_ifs with here <;> simp [here]

theorem Fields.mem_keys_of_shape? : ∀ {fs : Fields}, fs.shape? key = some s → key ∈ fs.keys
  | .cons name _ t rest, h => by
    rcases shape?_cons_eq_some.mp h with ⟨rfl, rfl⟩ | ⟨-, h⟩
    · exact List.mem_cons_self
    · exact List.mem_cons_of_mem _ (mem_keys_of_shape? h)

theorem Fields.mem_keys_of_item? : ∀ (fs : Fields) {i : Nat}, fs.item? i = some (key, s) →
    key ∈ fs.keys
  | .cons name _ t rest, 0, h => by
    cases h
    exact List.mem_cons_self
  | .cons name _ t rest, i + 1, h => List.mem_cons_of_mem _ (rest.mem_keys_of_item? h)

theorem Fields.sound_of_shape? : ∀ {fs : Fields}, fs.sound = true → fs.shape? key = some s →
    s.sound = true
  | .cons name _ t rest, sound, h => by
    obtain ⟨-, one, others⟩ := sound_cons.mp sound
    rcases shape?_cons_eq_some.mp h with ⟨rfl, rfl⟩ | ⟨-, h⟩
    · exact one
    · exact sound_of_shape? others h

/-- The field at a place is the one with its key, as no other field has it. -/
theorem Fields.shape?_of_item? : ∀ {fs : Fields} {i : Nat}, fs.sound = true →
    fs.item? i = some (key, s) → fs.shape? key = some s
  | .cons name _ t rest, 0, _, h => by
    cases h
    exact shape?_cons_eq_some.mpr (.inl ⟨rfl, rfl⟩)
  | .cons name _ t rest, i + 1, sound, h => by
    obtain ⟨absent, -, others⟩ := sound_cons.mp sound
    have apart : name ≠ key := fun same => absent (same ▸ rest.mem_keys_of_item? h)
    exact shape?_cons_eq_some.mpr (.inr ⟨apart, shape?_of_item? others h⟩)

/-! ### Reading a record with one part exchanged -/

/-- Values that are read alike fill the slot of their field alike. -/
theorem Fields.put_congr (same : s.decode j = s.decode j') : ∀ {fs : Fields} {slots : fs.Slots},
    fs.shape? key = some s → fs.put key j slots = fs.put key j' slots
  | .cons name _ t rest, (slot, slots), h => by
    rcases shape?_cons_eq_some.mp h with ⟨rfl, rfl⟩ | ⟨other, h⟩
    · rw [put, put, if_pos rfl, if_pos rfl, same]
    · rw [put, put, if_neg other.symm, if_neg other.symm, put_congr same h]

/-- Values that are read alike come to the same at the place of a field. -/
theorem Fields.positional_congr (same : s.decode j = s.decode j') {tooShort : Nat → Mismatch}
    {after : List Json} : ∀ (fs : Fields) (before : List Json) {count : Nat},
      fs.item? before.length = some (key, s) →
        fs.positional tooShort (before ++ j :: after) count =
          fs.positional tooShort (before ++ j' :: after) count
  | .cons name _ t rest, [], count, h => by
    cases h
    rw [List.nil_append, List.nil_append, positional_cons, positional_cons, same]
  | .cons name _ t rest, b :: before, count, h => by
    rw [List.cons_append, List.cons_append, positional_cons, positional_cons,
      rest.positional_congr same before h]

/-- An entry that no field is for changes nothing about what is read into the slots. -/
theorem readEntries_unnamed {fs : Fields} (unnamed : key ∉ fs.keys) (before after : Entries)
    (slots : fs.Slots) : readEntries fs.put (before ++ (key, j) :: after) slots =
      readEntries fs.put (before ++ after) slots := by
  have skipped : readEntries fs.put ((key, j) :: after) = readEntries fs.put after := by
    funext slots
    rw [readEntries, fs.put_of_not_mem unnamed]
  rw [readEntries_append, readEntries_append, skipped]

/-- The entry of a field is none of the others, whatever its value. -/
theorem Fields.others_named {fs : Fields} (named : key ∈ fs.keys) (before after : Entries) :
    fs.others (before ++ (key, j) :: after) = fs.others (before ++ after) := by
  simp [others, named]

/-! ### What is read as a field, and what is written of it -/

/-- What is read as a field is read from its entry. -/
theorem Shape.Given.decode {presence : Presence} {v : s.Value}
    (h : s.Given key presence entries v) (there : (key, j) ∈ entries) : s.decode j = .ok v := by
  have under : j ∈ entries.under key := Entries.mem_under.mpr there
  unfold Given at h
  cases kept : entries.under key with
  | nil =>
    rw [kept] at under
    cases under
  | cons only more =>
    rw [kept] at h under
    cases more with
    | nil =>
      rw [List.mem_singleton] at under
      exact under ▸ h
    | cons other more => cases h

theorem Fields.value?_of_given : ∀ {fs : Fields} {v : fs.Value}, fs.Given entries v →
    fs.shape? key = some s → (key, j) ∈ entries →
      ∃ w, fs.value? v key = some ⟨s, w⟩ ∧ s.decode j = .ok w
  | .cons name _ t rest, (v, vs), ⟨one, others⟩, h, there => by
    rcases shape?_cons_eq_some.mp h with ⟨rfl, rfl⟩ | ⟨other, h⟩
    · exact ⟨v, if_pos rfl, one.decode there⟩
    · obtain ⟨w, found, read⟩ := value?_of_given others h there
      exact ⟨w, (if_neg other).trans found, read⟩

theorem Fields.value?_of_positional {tooShort : Nat → Mismatch} {after : List Json} :
    ∀ {fs : Fields} (before : List Json) {count : Nat} {v : fs.Value}, fs.sound = true →
      fs.positional tooShort (before ++ j :: after) count = .ok v →
        fs.item? before.length = some (key, s) →
          ∃ w, fs.value? v key = some ⟨s, w⟩ ∧ s.decode j = .ok w
  | .cons name _ t rest, [], count, v, _, read, h => by
    cases h
    rw [List.nil_append, positional_cons] at read
    obtain ⟨w, one, later⟩ := bind_eq_ok read
    obtain ⟨ws, -, rfl⟩ := map_eq_ok later
    exact ⟨w, if_pos rfl, one⟩
  | .cons name _ t rest, b :: before, count, v, sound, read, h => by
    obtain ⟨absent, -, others⟩ := sound_cons.mp sound
    have apart : name ≠ key := fun same => absent (same ▸ rest.mem_keys_of_item? h)
    rw [List.cons_append, positional_cons] at read
    obtain ⟨u, -, later⟩ := bind_eq_ok read
    obtain ⟨us, more, rfl⟩ := map_eq_ok later
    obtain ⟨w, found, one⟩ := value?_of_positional before others more h
    exact ⟨w, (if_neg apart).trans found, one⟩

/-- The nothing of a shape is written as null. -/
theorem Shape.encode_of_isNone : ∀ {s : Shape} {v : s.Value}, s.isNone v = true →
    s.encode v = .null
  | .nullable _, none, _ => rfl

/-- A field that does not hold null is written under its key. -/
theorem Fields.encode_of_value? : ∀ {fs : Fields} {v : fs.Value} {w : s.Value},
    fs.value? v key = some ⟨s, w⟩ → s.encode w ≠ .null →
      ∃ before after, fs.encode v = before ++ (key, s.encode w) :: after
  | .cons name presence t rest, (v, vs), w, found, given => by
    rw [value?] at found
    by_cases here : name = key
    · rw [if_pos here] at found
      subst here
      cases found
      refine ⟨[], rest.encode vs, ?_⟩
      cases presence with
      | required => rfl
      | defaulted j => rfl
      | optional =>
        rw [encode, if_neg fun nothing => given (Shape.encode_of_isNone nothing)]
        rfl
    · rw [if_neg here] at found
      obtain ⟨before, after, written⟩ := encode_of_value? found given
      cases presence with
      | required => exact ⟨_ :: before, after, congrArg (_ :: ·) written⟩
      | defaulted j => exact ⟨_ :: before, after, congrArg (_ :: ·) written⟩
      | optional =>
        rw [encode]
        split_ifs
        · exact ⟨before, after, written⟩
        · exact ⟨_ :: before, after, congrArg (_ :: ·) written⟩

end

/-! ### Places -/

/-- A step from a value to a part of it. -/
inductive Leg where
  | item (i : Nat)
  /-- To the value of a field, whether the record is an object or an array. -/
  | member (key : String)

/-- A place within values of a shape, where an object is read under shape `t`: the path that leads
there, and all that stands `around` the object, which may have any entries. -/
inductive Shape.Site (t : Shape) : Shape → List Leg → (Entries → Json) → Prop
  | here : Site t t [] Json.object
  | given {s : Shape} {path : List Leg} {around : Entries → Json} (h : Site t s path around) :
    Site t (.nullable s) path around
  | item {s : Shape} {path : List Leg} {around : Entries → Json} (before after : List Json)
    (h : Site t s path around) :
    Site t (.list s) (.item before.length :: path)
      fun entries => .array (before ++ around entries :: after)
  | entry {name : String} {isOpen : Bool} {fs : Fields} {key : String} {s : Shape}
    {path : List Leg} {around : Entries → Json} (before after : Entries)
    (named : fs.shape? key = some s) (h : Site t s path around) :
    Site t (.record name isOpen fs) (.member key :: path)
      fun entries => .object (before ++ (key, around entries) :: after)
  /-- A closed record may be an array, with its fields in declared order. -/
  | positional {name : String} {fs : Fields} {key : String} {s : Shape} {path : List Leg}
    {around : Entries → Json} (before after : List Json)
    (placed : fs.item? before.length = some (key, s)) (h : Site t s path around) :
    Site t (.record name false fs) (.member key :: path)
      fun entries => .array (before ++ around entries :: after)

section

variable {t s : Shape} {path : List Leg} {around : Entries → Json} {entries entries' : Entries}

theorem Shape.Site.around_ne_null (h : Site t s path around) (entries : Entries) :
    around entries ≠ .null := by
  induction h with
  | given h ih => exact ih
  | here => nofun
  | item before after h ih => nofun
  | entry before after named h ih => nofun
  | positional before after placed h ih => nofun

/-- Objects that are read alike at a place make values that are read alike. -/
theorem Shape.Site.decode_congr (h : Site t s path around)
    (same : t.decode (.object entries) = t.decode (.object entries')) :
    s.decode (around entries) = s.decode (around entries') := by
  induction h with
  | here => exact same
  | given h ih =>
    rw [decode, Json.asNullable_of_ne (h.around_ne_null _), decode,
      Json.asNullable_of_ne (h.around_ne_null _), ih]
  | @item s path around before after h ih =>
    have items : (before ++ around entries :: after).mapM s.decode =
        (before ++ around entries' :: after).mapM s.decode := by
      simp only [List.mapM_append, List.mapM_cons, ih]
    rw [decode, decode]
    exact items
  | @entry name isOpen fs key s path around before after named h ih =>
    have put (slots : fs.Slots) :
        fs.put key (around entries) slots = fs.put key (around entries') slots :=
      Fields.put_congr ih named
    have read (slots : fs.Slots) :
        readEntries fs.put (before ++ (key, around entries) :: after) slots =
          readEntries fs.put (before ++ (key, around entries') :: after) slots := by
      simp only [readEntries_append, readEntries, put]
    cases isOpen with
    | false => rw [decode_object, decode_object, read]
    | true =>
      have there := Fields.mem_keys_of_shape? named
      rw [decode_openObject, decode_openObject, read, Fields.others_named there,
        Fields.others_named there]
  | positional before after placed h ih =>
    exact Fields.positional_congr ih _ before placed

end

/-! ### Kept entries -/

/-- The item at a place is read to the one at the same place. -/
theorem mapM_eq_ok_at {ε α β : Type} {read : α → Except ε β} {a : α} {after : List α} :
    ∀ (before : List α) {bs : List β}, (before ++ a :: after).mapM read = .ok bs →
      ∃ front b back, bs = front ++ b :: back ∧ front.length = before.length ∧ read a = .ok b
  | [], _, h => by
    rw [List.nil_append, List.mapM_cons] at h
    obtain ⟨b, one, h⟩ := bind_eq_ok h
    obtain ⟨back, -, h⟩ := bind_eq_ok h
    exact ⟨[], b, back, (Except.ok.inj h).symm, rfl, one⟩
  | first :: before, _, h => by
    rw [List.cons_append, List.mapM_cons] at h
    obtain ⟨c, -, h⟩ := bind_eq_ok h
    obtain ⟨rest, more, h⟩ := bind_eq_ok h
    obtain ⟨front, b, back, rfl, long, one⟩ := mapM_eq_ok_at before more
    exact ⟨c :: front, b, back, (Except.ok.inj h).symm, congrArg (· + 1) long, one⟩

/-- At a path of a value, an object with some entries stands where shape `t` is read. -/
def Shape.Holds (t s : Shape) (path : List Leg) (j : Json) (entries : Entries) : Prop :=
  ∃ around, t.Site s path around ∧ j = around entries

section

variable {t s : Shape} {path : List Leg} {j : Json} {entries : Entries}

theorem Shape.Holds.given (h : t.Holds s path j entries) :
    t.Holds (.nullable s) path j entries := by
  obtain ⟨around, site, same⟩ := h
  exact ⟨around, .given site, same⟩

theorem Shape.Holds.item (h : t.Holds s path j entries) (before after : List Json) :
    t.Holds (.list s) (.item before.length :: path) (.array (before ++ j :: after)) entries := by
  obtain ⟨around, site, rfl⟩ := h
  exact ⟨_, .item before after site, rfl⟩

theorem Shape.Holds.entry (h : t.Holds s path j entries) (before after : Entries)
    {name key : String} {isOpen : Bool} {fs : Fields} (named : fs.shape? key = some s) :
    t.Holds (.record name isOpen fs) (.member key :: path) (.object (before ++ (key, j) :: after))
      entries := by
  obtain ⟨around, site, rfl⟩ := h
  exact ⟨_, .entry before after named site, rfl⟩

theorem Shape.Holds.ne_null (h : t.Holds s path j entries) : j ≠ .null := by
  obtain ⟨around, site, rfl⟩ := h
  exact site.around_ne_null entries

/-- What stands in the value of a field stands in what is written of the record, whatever is
appended to it. -/
theorem Shape.Holds.fields {name key : String} {isOpen : Bool} {fs : Fields} {v : fs.Value}
    {w : s.Value} (h : t.Holds s path (s.encode w) entries) (named : fs.shape? key = some s)
    (found : fs.value? v key = some ⟨s, w⟩) (extra : Entries) :
    t.Holds (.record name isOpen fs) (.member key :: path) (.object (fs.encode v ++ extra))
      entries := by
  -- an optional field is left out only if it holds null, which nothing stands in
  obtain ⟨before, after, written⟩ := Fields.encode_of_value? found h.ne_null
  rw [written, List.append_assoc, List.cons_append]
  exact h.entry before (after ++ extra) named

/-- Where an open record is read, one is written that has kept the same entries. -/
theorem Shape.Site.encode_others {name : String} {fs : Fields} {around : Entries → Json}
    (h : (Shape.record name true fs).Site s path around) (sound : s.sound = true) {v : s.Value}
    (read : s.decode (around entries) = .ok v) :
    ∃ entries', (Shape.record name true fs).Holds s path (s.encode v) entries' ∧
      fs.others entries' = fs.others entries := by
  induction h with
  | here =>
    rw [decode_openObject] at read
    obtain ⟨values, -, rfl⟩ := map_eq_ok read
    refine ⟨_, ⟨_, .here, rfl⟩, fs.others_encode values fun e he => ?_⟩
    simpa using (List.mem_filter.mp he).2
  | given h ih =>
    rw [decode, Json.asNullable_of_ne (h.around_ne_null _)] at read
    obtain ⟨w, inner, rfl⟩ := map_eq_ok read
    obtain ⟨entries', holds, kept⟩ := ih sound inner
    exact ⟨entries', holds.given, kept⟩
  | @item s path around before after h ih =>
    obtain ⟨front, w, back, rfl, long, one⟩ := mapM_eq_ok_at before read
    obtain ⟨entries', holds, kept⟩ := ih sound one
    refine ⟨entries', ?_, kept⟩
    have written := holds.item (front.map s.encode) (back.map s.encode)
    rwa [List.length_map, long, ← List.map_cons, ← List.map_append] at written
  | @entry outer isOpen gs key s path around before after named h ih =>
    have there : (key, around entries) ∈ before ++ (key, around entries) :: after := by simp
    have soundHere : s.sound = true := Fields.sound_of_shape? sound named
    cases isOpen with
    | false =>
      rw [decode_object] at read
      obtain ⟨w, found, one⟩ :=
        Fields.value?_of_given ((Fields.read_eq_ok gs sound).mp read) named there
      obtain ⟨entries', holds, kept⟩ := ih soundHere one
      refine ⟨entries', ?_, kept⟩
      rw [encode, ← List.append_nil (gs.encode v)]
      exact holds.fields named found []
    | true =>
      rw [decode_openObject] at read
      obtain ⟨values, inner, rfl⟩ := map_eq_ok read
      obtain ⟨w, found, one⟩ :=
        Fields.value?_of_given ((Fields.read_eq_ok gs sound).mp inner) named there
      obtain ⟨entries', holds, kept⟩ := ih soundHere one
      exact ⟨entries', holds.fields named found _, kept⟩
  | @positional outer gs key s path around before after placed h ih =>
    have named := Fields.shape?_of_item? sound placed
    obtain ⟨w, found, one⟩ := Fields.value?_of_positional before sound read placed
    obtain ⟨entries', holds, kept⟩ := ih (Fields.sound_of_shape? sound named) one
    refine ⟨entries', ?_, kept⟩
    rw [encode, ← List.append_nil (gs.encode v)]
    exact holds.fields named found []

end

/-! ### Open and closed records -/

mutual
/-- The records that a shape is made of, each with whether it is open. -/
def Shape.records : Shape → List (String × Bool)
  | .nullable s => s.records
  | .list s => s.records
  | .record name isOpen fs => (name, isOpen) :: fs.records
  | _ => []
@[inherit_doc Shape.records]
def Fields.records : Fields → List (String × Bool)
  | .nil => []
  | .cons _ _ s rest => s.records ++ rest.records
end

theorem Fields.records_of_shape? {key : String} {s : Shape} : ∀ {fs : Fields},
    fs.shape? key = some s → s.records ⊆ fs.records
  | .cons name _ t rest, h => by
    rw [records]
    rcases shape?_cons_eq_some.mp h with ⟨rfl, rfl⟩ | ⟨-, h⟩
    · exact List.subset_append_left _ _
    · exact List.subset_append_of_subset_right _ (records_of_shape? h)

theorem Fields.records_of_item? {key : String} {s : Shape} : ∀ (fs : Fields) {i : Nat},
    fs.item? i = some (key, s) → s.records ⊆ fs.records
  | .cons name _ t rest, 0, h => by
    cases h
    exact List.subset_append_left _ _
  | .cons name _ t rest, i + 1, h =>
    List.subset_append_of_subset_right _ (rest.records_of_item? h)

theorem Shape.Site.records {t s : Shape} {path : List Leg} {around : Entries → Json}
    (h : t.Site s path around) : t.records ⊆ s.records := by
  induction h with
  | here => exact List.Subset.refl _
  | given h ih => exact ih
  | item before after h ih => exact ih
  | entry before after named h ih =>
    exact List.subset_cons_of_subset _ (List.Subset.trans ih (Fields.records_of_shape? named))
  | positional before after placed h ih =>
    exact List.subset_cons_of_subset _ (List.Subset.trans ih (Fields.records_of_item? _ placed))

/-- The records of a session that keep the entries that they do not name. -/
def Session.keepers : List String :=
  ["SessionState", "FlowSettings", "GeneralSettings", "SystemMessages"]

/-- The keepers are the open records. -/
theorem Session.isOpen_iff {name : String} {isOpen : Bool} {fs : Fields} {path : List Leg}
    {around : Entries → Json}
    (h : (Shape.record name isOpen fs).Site (Wire.shape Session) path around) :
    isOpen = true ↔ name ∈ keepers := by
  have all : ∀ r ∈ (Wire.shape Session).records, r.2 = true ↔ r.1 ∈ keepers := by decide
  exact all (name, isOpen) (h.records List.mem_cons_self)

/-! ### Runs -/

section

variable {new : String → Prop} {s s' : Session} {d : Deed}

theorem Session.onTop_extra (s : Session) (change : Frame → Frame) :
    (s.onTop change).extra = s.extra := by
  obtain ⟨frames, extra⟩ := s
  cases frames <;> rfl

/-- A deed leaves alone what the engine keeps without looking at it. -/
theorem Session.Became.extra (h : s.Became new d s') : s'.extra = s.extra := by
  cases h with
  | idle d => rfl
  | pushed d h => exact h.1
  | returned edgeId h => exact h.1
  | varsEdited edit => exact s.onTop_extra (.editVars edit)
  | answersEdited edit => exact s.onTop_extra (.editAnswers edit)

theorem Scene.play_extra {host : Host σ} {scene : Scene σ} (deeds : List Deed) :
    (scene.play host deeds).2.session.extra = scene.session.extra := by
  induction deeds generalizing scene with
  | nil => rfl
  | cons d deeds ih =>
    have became : scene.session.Became _ d (scene.perform host d).2.session :=
      (perform_keeps host.respects_all (fun _ _ _ _ => trivial) d trivial).2
    exact ih.trans became.extra

end

/-! ### Sessions -/

/-- The entries that a session does not name. -/
def Entries.besideFrames (entries : Entries) : Entries :=
  entries.filter (·.1 ≠ "typebotsQueue")

/-- A session keeps the entries beside its frames. -/
theorem Session.extra_eq {entries : Entries} {s : Session}
    (read : decode Session (.object entries) = .ok s) : s.extra = entries.besideFrames := by
  obtain ⟨values, -, same⟩ :=
    map_eq_ok ((Shape.decode_openObject ..).symm.trans (decode_eq_ok.mp read))
  refine (congrArg Prod.snd same).symm.trans (List.filter_congr fun e _ => ?_)
  simp [Fields.keys, Members.required, Members.cons, Members.nil]

theorem Session.encode_eq (s : Session) :
    encode s = .object (("typebotsQueue", encode s.frames) :: s.extra) := rfl

/-- Entries that the format does not name are kept by the four open records and skipped by all
others. Where an open record is read in a session, one is written again with the same other entries;
those of the session itself are written again after any deeds as well, whatever answers the requests
of the engine. In any other record of a session, one entry more or less under a key that it does not
name makes no difference to what is read, nor to whether anything is. -/
theorem unnamed_kept_or_skipped :
    (∀ (name : String) (isOpen : Bool) (fs : Fields) (path : List Leg) (around : Entries → Json),
      (Shape.record name isOpen fs).Site (Wire.shape Session) path around →
        name ∈ Session.keepers → ∀ (entries : Entries) (s : Session),
          decode Session (around entries) = .ok s → ∃ entries' : Entries,
            (Shape.record name isOpen fs).Holds (Wire.shape Session) path (encode s) entries' ∧
              fs.others entries' = fs.others entries) ∧
      (∀ (entries : Entries) (s : Session), decode Session (.object entries) = .ok s →
        ∀ (σ : Type) (host : Host σ) (w : σ) (deeds : List Deed), ∃ entries' : Entries,
          encode (Scene.play host ⟨s, w⟩ deeds).2.session = .object entries' ∧
            entries'.besideFrames = entries.besideFrames) ∧
      ∀ (name : String) (isOpen : Bool) (fs : Fields) (path : List Leg) (around : Entries → Json),
        (Shape.record name isOpen fs).Site (Wire.shape Session) path around →
          name ∉ Session.keepers → ∀ (before after : Entries) (key : String) (j : Json),
            key ∉ fs.keys → decode Session (around (before ++ (key, j) :: after)) =
              decode Session (around (before ++ after)) := by
  refine ⟨?_, ?_, ?_⟩
  · intro name isOpen fs path around site keeps entries s read
    obtain rfl := (Session.isOpen_iff site).mpr keeps
    exact site.encode_others rfl (decode_eq_ok.mp read)
  · intro entries s read σ host w deeds
    refine ⟨_, Session.encode_eq _, ?_⟩
    rw [Scene.play_extra, Session.extra_eq read]
    simp [Entries.besideFrames]
  · intro name isOpen fs path around site skips before after key j unnamed
    obtain rfl : isOpen = false := by
      rw [← Bool.not_eq_true, Session.isOpen_iff site]
      exact skips
    have same : (Shape.record name false fs).decode (.object (before ++ (key, j) :: after)) =
        (Shape.record name false fs).decode (.object (before ++ after)) := by
      rw [Shape.decode_object, Shape.decode_object, readEntries_unnamed unnamed]
    exact congrArg (Wire.ofWire <$> ·) (site.decode_congr same)

namespace Sample

/-- A session as it may be stored, with some entries for messages and for an answer. Its flow is an
array that ends early, and there is an entry that no one reads. -/
def noted (messages answer : Entries) : Json :=
  .object [("note", .array [.null]), ("typebotsQueue", .array [.object [
    ("typebot", .array [.string "f", .null, .array [], .array [], .array [], .array [],
      .object [("general", .object [("systemMessages", .object messages)])]]),
    ("resultId", .string "r"), ("answers", .array [.object answer])]])]

/-- An answer with a null that no one reads. -/
def answered : Entries := [("key", .string "q"), ("mark", .null), ("value", .string "a")]

/-- Messages with a null that is not kept and one that is. -/
def marked : Entries := [("botClosed", .null), ("mark", .null)]

/-- Where the messages stand. -/
def messagesPath : List Leg :=
  [.member "typebotsQueue", .item 0, .member "typebot", .member "settings", .member "general",
    .member "systemMessages"]

theorem messages_site (answer : Entries) :
    (Wire.shape Messages).Site (Wire.shape Session) messagesPath (noted · answer) :=
  .entry [_] [] rfl (.item [] [] (.entry [] [_, _] rfl (.positional [_, _, _, _, _, _] [] rfl
    (.entry [] [] rfl (.given (.entry [] [] rfl (.given .here)))))))

theorem answer_site (messages : Entries) :
    (Wire.shape Answer).Site (Wire.shape Session)
      [.member "typebotsQueue", .item 0, .member "answers", .item 0] (noted messages ·) :=
  .entry [_] [] rfl (.item [] [] (.entry [_, _] [] rfl (.item [] [] .here)))

end Sample

theorem unnamed_kept_or_skipped_sample :
    ∃ fs s, Wire.shape Messages = .record "SystemMessages" true fs ∧
      decode Session (Sample.noted Sample.marked Sample.answered) = .ok s ∧
      (∃ entries' : Entries,
        (Wire.shape Messages).Holds (Wire.shape Session) Sample.messagesPath (encode s) entries' ∧
          fs.others entries' = [("mark", .null)]) ∧
      (∃ entries' : Entries,
        encode (Scene.play Memory.host ⟨s, Sample.memory⟩
          [.link .default Sample.join, .next none]).2.session = .object entries' ∧
            entries'.besideFrames = [("note", .array [.null])]) ∧
      decode Session (Sample.noted Sample.marked [("key", .string "q"), ("value", .string "a")]) =
        .ok s := by
  obtain ⟨s, read⟩ : ∃ s, decode Session (Sample.noted Sample.marked Sample.answered) = .ok s :=
    ⟨_, rfl⟩
  obtain ⟨kept, survive, skipped⟩ := unnamed_kept_or_skipped
  refine ⟨_, s, rfl, read, ?_, ?_, ?_⟩
  · obtain ⟨entries', holds, same⟩ :=
      kept _ _ _ _ _ (Sample.messages_site _) (by decide) _ s read
    exact ⟨entries', holds, same⟩
  · exact survive _ s read Memory Memory.host Sample.memory _
  · rw [← read]
    exact (skipped _ _ _ _ _ (Sample.answer_site _) (by decide) [_] [_] "mark" .null
      (by decide)).symm

end Dialogue
