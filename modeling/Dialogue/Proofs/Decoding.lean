import Dialogue.Flow.Definition
import Dialogue.Proofs.RoundTrip

/-!
# Definitions that are decoded

A definition stands for a flow if every column on its own is read as a part of the flow
(`Definition.toFlow_eq_ok`); else the first column that cannot be read is blamed
(`Definition.toFlow_eq_error`). The id that is given matters to the id of the flow alone
(`Definition.toFlow_renamed`), and to the flow that is blamed.
-/

namespace Dialogue

/-- What a raw value is read as, null being nothing. -/
def Wire.Reads {α : Type} [Wire α] (nothing : α) (j : Json) (a : α) : Prop :=
  (j = .null → a = nothing) ∧ (j ≠ .null → decode α j = .ok a)

/-- Why a raw value cannot be read, null being nothing. -/
def Wire.Misreads (α : Type) [Wire α] (j : Json) (why : Mismatch) : Prop :=
  j ≠ .null ∧ decode α j = .error why

/-- The columns of a definition. -/
inductive Column where
  | groups
  | edges
  | vars
  | events
  | settings
  deriving DecidableEq

/-- The columns, in the order in which they are read. -/
def Column.all : List Column := [.groups, .edges, .vars, .events, .settings]

/-- The columns that are read before one. -/
def Column.before (c : Column) : List Column := all.takeWhile (· != c)

/-- The name that a column is blamed by. -/
def Column.name : Column → String
  | .groups => "groups"
  | .edges => "edges"
  | .vars => "variables"
  | .events => "events"
  | .settings => "settings"

namespace Definition

/-- Why a column of a definition cannot be read. -/
def Misreads (d : Definition) : Column → Mismatch → Prop
  | .groups => Wire.Misreads (List Group) d.groups
  | .edges => Wire.Misreads (List Edge) d.edges
  | .vars => Wire.Misreads (List Variable) d.vars
  | .events => Wire.Misreads (List Event) d.events
  | .settings => Wire.Misreads Settings d.settings

/-- None of some columns is misread. -/
def Clears (d : Definition) (cs : List Column) : Prop := ∀ c ∈ cs, ∀ why, ¬ d.Misreads c why

/-- A column is misread, and none before it. -/
structure Blames (d : Definition) (c : Column) (why : Mismatch) : Prop where
  misread : d.Misreads c why
  first : d.Clears c.before

/-- Each part of a flow is read from a column of the definition, and the messages are those of the
general part of the settings, if there is one. -/
structure StandsFor (d : Definition) (f : Flow) : Prop where
  version : f.version = d.version
  groups : Wire.Reads [] d.groups f.groups
  edges : Wire.Reads [] d.edges f.edges
  vars : Wire.Reads [] d.vars f.vars
  events : Wire.Reads [] d.events f.events
  settings : Wire.Reads .empty d.settings f.settings
  messages : f.systemMessages = f.settings.general.bind (·.systemMessages)

section

variable {α : Type} [Wire α] {id name : String} {empty a : α} {j : Json}

theorem column_eq_ok : column id name empty j = .ok a ↔ Wire.Reads empty j a := by
  unfold column Wire.Reads
  split
  · simp [eq_comm]
  · rename_i given
    have given : j ≠ .null := given
    cases decode α j <;> simp [given]

/-- A column that is not null is decoded as it is. -/
theorem column_eq_ok_iff (given : j ≠ .null) :
    column id name empty j = .ok a ↔ decode α j = .ok a := by
  rw [column_eq_ok, Wire.Reads]
  simp [given]

theorem column_eq_error {f : Fault} (h : column id name empty j = .error f) :
    ∃ why, Wire.Misreads α j why ∧ f = .invalidFlow id (.column name why) := by
  unfold column at h
  split at h
  · cases h
  · rename_i given
    split at h
    · cases h
    · rename_i why unread
      exact ⟨why, ⟨given, unread⟩, (Except.error.inj h).symm⟩

/-- A column that is read is not misread. -/
theorem column_read (h : column id name empty j = .ok a) (why : Mismatch) :
    ¬ Wire.Misreads α j why := by
  rintro ⟨given, unread⟩
  cases unread.symm.trans ((column_eq_ok_iff given).mp h)

theorem column_renamed (h : column id name empty j = .ok a) (id' : String) :
    column id' name empty j = .ok a := column_eq_ok.mpr (column_eq_ok.mp h)

theorem column_stable (nothing : Wire.Stable empty) (h : column id name empty j = .ok a) :
    Wire.Stable a := by
  obtain ⟨null, given⟩ := column_eq_ok.mp h
  by_cases missing : j = .null
  · exact null missing ▸ nothing
  · exact stable_of_decode (given missing)

end

variable {d : Definition} {override : Option String} {f : Flow}

/-- What it means that a definition stands for a flow. -/
theorem toFlow_eq_ok : d.toFlow override = .ok f ↔
    f.id = override.getD d.id ∧ f.version = d.version ∧
      column f.id "groups" [] d.groups = .ok f.groups ∧
      column f.id "edges" [] d.edges = .ok f.edges ∧
      column f.id "variables" [] d.vars = .ok f.vars ∧
      column f.id "events" [] d.events = .ok f.events ∧
      column f.id "settings" .empty d.settings = .ok f.settings ∧
      f.systemMessages = f.settings.messages := by
  constructor
  · intro h
    obtain ⟨groups, readGroups, h⟩ := bind_eq_ok h
    obtain ⟨edges, readEdges, h⟩ := bind_eq_ok h
    obtain ⟨vars, readVars, h⟩ := bind_eq_ok h
    obtain ⟨events, readEvents, h⟩ := bind_eq_ok h
    obtain ⟨settings, readSettings, h⟩ := bind_eq_ok h
    obtain rfl := Except.ok.inj h
    exact ⟨rfl, rfl, readGroups, readEdges, readVars, readEvents, readSettings, rfl⟩
  · rintro ⟨id, version, groups, edges, vars, events, settings, messages⟩
    unfold toFlow
    simp only [← id, ← version, groups, edges, vars, events, settings]
    change Except.ok (Flow.mk f.id f.version f.groups f.edges f.events f.vars f.settings
      f.settings.messages) = .ok f
    rw [← messages]

/-- A flow has the id that it is decoded under. -/
theorem toFlow_id {id : String} (h : d.toFlow (some id) = .ok f) : f.id = id :=
  (toFlow_eq_ok.mp h).1

/-- Under another id a definition stands for the same flow. -/
theorem toFlow_renamed (h : d.toFlow none = .ok f) (id : String) :
    d.toFlow (some id) = .ok { f with id := id } := by
  obtain ⟨-, version, groups, edges, vars, events, settings, messages⟩ := toFlow_eq_ok.mp h
  exact toFlow_eq_ok.mpr ⟨rfl, version, column_renamed groups id, column_renamed edges id,
    column_renamed vars id, column_renamed events id, column_renamed settings id, messages⟩

/-- A flow that is decoded has each part from a column of the definition. -/
theorem standsFor_of_toFlow (h : d.toFlow override = .ok f) : d.StandsFor f := by
  obtain ⟨-, version, groups, edges, vars, events, settings, messages⟩ := toFlow_eq_ok.mp h
  exact ⟨version, column_eq_ok.mp groups, column_eq_ok.mp edges, column_eq_ok.mp vars,
    column_eq_ok.mp events, column_eq_ok.mp settings, messages⟩

/-- Of a definition that is decoded no column is misread. -/
theorem toFlow_read (h : d.toFlow override = .ok f) (c : Column) (why : Mismatch) :
    ¬ d.Misreads c why := by
  obtain ⟨-, -, groups, edges, vars, events, settings, -⟩ := toFlow_eq_ok.mp h
  cases c with
  | groups => exact column_read groups why
  | edges => exact column_read edges why
  | vars => exact column_read vars why
  | events => exact column_read events why
  | settings => exact column_read settings why

theorem Clears.concat {cs : List Column} {c : Column} (before : d.Clears cs)
    (read : ∀ why, ¬ d.Misreads c why) : d.Clears (cs ++ [c]) :=
  List.forall_mem_append.mpr ⟨before, List.forall_mem_singleton.mpr read⟩

/-- A definition that cannot be decoded is blamed for the first column that is misread. -/
theorem toFlow_eq_error {e : Fault} (h : d.toFlow override = .error e) :
    ∃ c why, d.Blames c why ∧
      e = .invalidFlow (override.getD d.id) (.column c.name why) := by
  have before : d.Clears [] := List.forall_mem_nil _
  rcases bind_eq_error h with h | ⟨groups, read, h⟩
  · obtain ⟨why, misread, same⟩ := column_eq_error h
    exact ⟨.groups, why, ⟨misread, before⟩, same⟩
  have before := before.concat (c := .groups) (column_read read)
  rcases bind_eq_error h with h | ⟨edges, read, h⟩
  · obtain ⟨why, misread, same⟩ := column_eq_error h
    exact ⟨.edges, why, ⟨misread, before⟩, same⟩
  have before := before.concat (c := .edges) (column_read read)
  rcases bind_eq_error h with h | ⟨vars, read, h⟩
  · obtain ⟨why, misread, same⟩ := column_eq_error h
    exact ⟨.vars, why, ⟨misread, before⟩, same⟩
  have before := before.concat (c := .vars) (column_read read)
  rcases bind_eq_error h with h | ⟨events, read, h⟩
  · obtain ⟨why, misread, same⟩ := column_eq_error h
    exact ⟨.events, why, ⟨misread, before⟩, same⟩
  have before := before.concat (c := .events) (column_read read)
  rcases bind_eq_error h with h | ⟨settings, read, h⟩
  · obtain ⟨why, misread, same⟩ := column_eq_error h
    exact ⟨.settings, why, ⟨misread, before⟩, same⟩
  · cases h

/-- A definition that cannot be decoded is blamed, and not the session. -/
theorem toFlow_error {e : Fault} (h : d.toFlow override = .error e) : e ≠ .noFrame := by
  obtain ⟨c, why, -, rfl⟩ := toFlow_eq_error h
  exact nofun

end Definition

end Dialogue
