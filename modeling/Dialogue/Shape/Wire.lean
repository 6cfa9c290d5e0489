import Dialogue.Shape.Encode
import Dialogue.Shape.Text

/-!
# Types with a wire format

A type has a wire format when its values correspond one to one to the values of a shape. `decode`,
`ofText` and `encode` then read and write it.
-/

namespace Dialogue

/-- A shape for a type, and the correspondence between the two. -/
class Wire (α : Type) where
  shape : Shape
  ofWire : shape.Value → α
  toWire : α → shape.Value
  ofWire_toWire : ∀ a, ofWire (toWire a) = a
  toWire_ofWire : ∀ w, toWire (ofWire w) = w

namespace Wire

instance : Wire String := ⟨.string, fun s => s, fun s => s, fun _ => rfl, fun _ => rfl⟩

instance : Wire Bool := ⟨.boolean, fun b => b, fun b => b, fun _ => rfl, fun _ => rfl⟩

instance : Wire Nat := ⟨.count, fun n => n, fun n => n, fun _ => rfl, fun _ => rfl⟩

instance : Wire Double := ⟨.real, fun d => d, fun d => d, fun _ => rfl, fun _ => rfl⟩

instance : Wire Json := ⟨.any, fun j => j, fun j => j, fun _ => rfl, fun _ => rfl⟩

/-- Reading what was written item by item changes nothing. -/
theorem map_list_ofWire_toWire {α : Type} [Wire α] (as : List α) :
    (as.map toWire).map ofWire = as := by
  simp [Function.comp_def, ofWire_toWire]

/-- Writing what was read item by item changes nothing. -/
theorem map_list_toWire_ofWire {α : Type} [Wire α] (ws : List (shape α).Value) :
    (ws.map (ofWire (α := α))).map toWire = ws := by
  simp [Function.comp_def, toWire_ofWire]

/-- Reading what was written, if anything, changes nothing. -/
theorem map_option_ofWire_toWire {α : Type} [Wire α] (a : Option α) :
    (a.map toWire).map ofWire = a := by
  simp [Function.comp_def, ofWire_toWire]

/-- Writing what was read, if anything, changes nothing. -/
theorem map_option_toWire_ofWire {α : Type} [Wire α] (w : Option (shape α).Value) :
    (w.map (ofWire (α := α))).map toWire = w := by
  simp [Function.comp_def, toWire_ofWire]

instance {α : Type} [Wire α] : Wire (List α) where
  shape := .list (shape α)
  ofWire ws := ws.map ofWire
  toWire as := as.map toWire
  ofWire_toWire := map_list_ofWire_toWire
  toWire_ofWire := map_list_toWire_ofWire

instance {α : Type} [Wire α] : Wire (Option α) where
  shape := .nullable (shape α)
  ofWire w := w.map ofWire
  toWire a := a.map toWire
  ofWire_toWire := map_option_ofWire_toWire
  toWire_ofWire := map_option_toWire_ofWire

end Wire

/-- Some members of a record: fields, and the correspondence of their values to a product. -/
structure Members (τ : Type) where
  fields : Fields
  ofWire : fields.Value → τ
  toWire : τ → fields.Value
  ofWire_toWire : ∀ t, ofWire (toWire t) = t
  toWire_ofWire : ∀ w, toWire (ofWire w) = w

namespace Members

/-- No members. -/
def nil : Members Unit := ⟨.nil, fun _ => (), fun _ => (), fun _ => rfl, fun _ => rfl⟩

/-- One more member in front, of a type with a wire format. -/
def cons {τ : Type} (key : String) (presence : Presence) (α : Type) [Wire α] (rest : Members τ) :
    Members (α × τ) where
  fields := .cons key presence (Wire.shape α) rest.fields
  ofWire w := (Wire.ofWire w.1, rest.ofWire w.2)
  toWire t := (Wire.toWire t.1, rest.toWire t.2)
  ofWire_toWire t := by rw [Wire.ofWire_toWire, rest.ofWire_toWire]
  toWire_ofWire w := by rw [Wire.toWire_ofWire, rest.toWire_ofWire]; rfl

/-- A member that has to be there. -/
def required {τ : Type} (key : String) (α : Type) [Wire α] (rest : Members τ) : Members (α × τ) :=
  cons key .required α rest

/-- A member that may be missing and is left out when there is nothing to write. -/
def optional {τ : Type} (key : String) (α : Type) [Wire α] (rest : Members τ) :
    Members (Option α × τ) :=
  cons key .optional (Option α) rest

/-- A member that stands for a value when it is missing. -/
def defaulted {τ : Type} (key : String) (value : Json) (α : Type) [Wire α] (rest : Members τ) :
    Members (α × τ) :=
  cons key (.defaulted value) α rest

end Members

/-- The wire format of a record, from its members and the correspondence to a structure. -/
@[reducible]
def Wire.record {τ α : Type} (name : String) (members : Members τ) (make : τ → α) (parts : α → τ)
    (make_parts : ∀ a, make (parts a) = a) (parts_make : ∀ t, parts (make t) = t) : Wire α where
  shape := .record name false members.fields
  ofWire w := make (members.ofWire w)
  toWire a := members.toWire (parts a)
  ofWire_toWire a := by rw [members.ofWire_toWire, make_parts]
  toWire_ofWire w := (congrArg members.toWire (parts_make _)).trans (members.toWire_ofWire w)

/-- The wire format of an open record, which keeps the entries that it has no member for. -/
@[reducible]
def Wire.openRecord {τ α : Type} (name : String) (members : Members τ) (make : τ × Entries → α)
    (parts : α → τ × Entries) (make_parts : ∀ a, make (parts a) = a)
    (parts_make : ∀ t, parts (make t) = t) : Wire α where
  shape := .record name true members.fields
  ofWire w := make (members.ofWire w.1, w.2)
  toWire a := (members.toWire (parts a).1, (parts a).2)
  ofWire_toWire a := by rw [members.ofWire_toWire]; exact make_parts a
  toWire_ofWire w :=
    (congrArg (fun t => (members.toWire t.1, t.2)) (parts_make _)).trans
      (congrArg (·, w.2) (members.toWire_ofWire w.1))

/-- Reads an untyped value. -/
def decode (α : Type) [Wire α] (j : Json) : Except Mismatch α :=
  Wire.ofWire <$> (Wire.shape α).decode j

/-- Reads a JSON text. -/
def decodeText (α : Type) [Wire α] (text : String) : Except Json.Problem α :=
  Wire.ofWire <$> (Wire.shape α).ofText text

/-- Writes a value. -/
def encode {α : Type} [Wire α] (a : α) : Json :=
  (Wire.shape α).encode (Wire.toWire a)

end Dialogue
