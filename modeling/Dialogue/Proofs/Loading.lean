import Dialogue.Proofs.Decoding
import Dialogue.Proofs.Records

/-!
# Two ways to load a flow

A flow is loaded from an object at once, or as a stored definition, whose columns are kept as they
are and decoded one by one. Either reads each member apart from the others, so both come to the same
flow (`loading_agrees`). They differ in two things only: a column that is null is an empty one for a
definition and no list for a flow, and the messages that a flow replaces stand in its settings for a
definition and in a member of their own for a flow.
-/

namespace Dialogue

/-- The members of a flow that a definition keeps as they are. -/
def Definition.columns : List String := ["groups", "edges", "variables", "events", "settings"]

section

variable {entries : Entries} {f : Flow} {d : Definition}

/-- What it means that a flow is read from an object. -/
theorem Flow.decode_object : decode Flow (.object entries) = .ok f ↔
    entries.Gives "id" .required f.id ∧ entries.Gives "version" (.defaulted .null) f.version ∧
      entries.Gives "groups" (.defaulted (.array [])) f.groups ∧
      entries.Gives "edges" (.defaulted (.array [])) f.edges ∧
      entries.Gives "events" (.defaulted (.array [])) f.events ∧
      entries.Gives "variables" (.defaulted (.array [])) f.vars ∧
      entries.Gives "settings" (.defaulted (.object [])) f.settings ∧
      entries.Gives "systemMessages" .optional f.systemMessages := by
  refine decode_eq_ok.trans ((Fields.read_eq_ok _ rfl).trans ?_)
  constructor
  · rintro ⟨id, version, groups, edges, events, vars, settings, messages, -⟩
    exact ⟨id, version, groups, edges, events, vars, settings, messages⟩
  · rintro ⟨id, version, groups, edges, events, vars, settings, messages⟩
    exact ⟨id, version, groups, edges, events, vars, settings, messages, trivial⟩

/-- What it means that a definition is read from an object. -/
theorem Definition.decode_object : decode Definition (.object entries) = .ok d ↔
    entries.Gives "id" .required d.id ∧ entries.Gives "version" (.defaulted .null) d.version ∧
      entries.Gives "groups" (.defaulted .null) d.groups ∧
      entries.Gives "edges" (.defaulted .null) d.edges ∧
      entries.Gives "variables" (.defaulted .null) d.vars ∧
      entries.Gives "events" (.defaulted .null) d.events ∧
      entries.Gives "settings" (.defaulted .null) d.settings := by
  refine decode_eq_ok.trans ((Fields.read_eq_ok _ rfl).trans ?_)
  constructor
  · rintro ⟨id, version, groups, edges, vars, events, settings, -⟩
    exact ⟨id, version, groups, edges, vars, events, settings⟩
  · rintro ⟨id, version, groups, edges, vars, events, settings⟩
    exact ⟨id, version, groups, edges, vars, events, settings, trivial⟩

/-- A column that is kept and decoded later is read as the member of a flow that is read at once. -/
theorem Definition.column_kept {α : Type} [Wire α] {key : String} {fallback : Json}
    {empty a : α} (flowId : String) (given : ∀ e ∈ entries, e.1 ∈ columns → e.2 ≠ .null)
    (listed : key ∈ columns) (stands : decode α fallback = .ok empty) :
    (∃ raw : Json, entries.Gives key (.defaulted .null) raw ∧
        column flowId key empty raw = .ok a) ↔
      entries.Gives key (.defaulted fallback) a := by
  simp only [Entries.gives_defaulted]
  match kept : entries.under key with
  | [] =>
    -- null is kept of a column that is missing
    have nothing : column flowId key empty .null = .ok a ↔ decode α fallback = .ok a := by
      simp [column, stands]
    change (∃ raw, Except.ok Json.null = Except.ok raw ∧ column flowId key empty raw = .ok a) ↔
      decode α fallback = .ok a
    exact ⟨fun ⟨_, rfl, read⟩ => nothing.mp read, fun read => ⟨.null, rfl, nothing.mpr read⟩⟩
  | [j] =>
    have decoded : column flowId key empty j = .ok a ↔ decode α j = .ok a := by
      have there : (key, j) ∈ entries := Entries.mem_under.mp (kept ▸ List.mem_cons_self)
      exact column_eq_ok_iff (given (key, j) there listed)
    change (∃ raw, Except.ok j = Except.ok raw ∧ column flowId key empty raw = .ok a) ↔
      decode α j = .ok a
    exact ⟨fun ⟨_, rfl, read⟩ => decoded.mp read, fun read => ⟨j, rfl, decoded.mpr read⟩⟩
  | _ :: _ :: _ => exact ⟨fun ⟨_, twice, _⟩ => twice, nofun⟩

/-- What it means that a definition is read from an object and stands for a flow. -/
theorem Definition.decode_toFlow (given : ∀ e ∈ entries, e.1 ∈ columns → e.2 ≠ .null) :
    (∃ d, decode Definition (.object entries) = .ok d ∧ d.toFlow none = .ok f) ↔
      entries.Gives "id" .required f.id ∧ entries.Gives "version" (.defaulted .null) f.version ∧
        entries.Gives "groups" (.defaulted (.array [])) f.groups ∧
        entries.Gives "edges" (.defaulted (.array [])) f.edges ∧
        entries.Gives "events" (.defaulted (.array [])) f.events ∧
        entries.Gives "variables" (.defaulted (.array [])) f.vars ∧
        entries.Gives "settings" (.defaulted (.object [])) f.settings ∧
        f.systemMessages = f.settings.messages := by
  constructor
  · rintro ⟨d, read, stands⟩
    obtain ⟨id, version, rawGroups, rawEdges, rawVars, rawEvents, rawSettings⟩ :=
      decode_object.mp read
    obtain ⟨sameId, sameVersion, groups, edges, vars, events, settings, messages⟩ :=
      toFlow_eq_ok.mp stands
    refine ⟨sameId ▸ id, sameVersion ▸ version, ?_, ?_, ?_, ?_, ?_, messages⟩
    · exact (column_kept _ given (by decide) rfl).mp ⟨_, rawGroups, groups⟩
    · exact (column_kept _ given (by decide) rfl).mp ⟨_, rawEdges, edges⟩
    · exact (column_kept _ given (by decide) rfl).mp ⟨_, rawEvents, events⟩
    · exact (column_kept _ given (by decide) rfl).mp ⟨_, rawVars, vars⟩
    · exact (column_kept _ given (by decide) rfl).mp ⟨_, rawSettings, settings⟩
  · rintro ⟨id, version, groups, edges, events, vars, settings, messages⟩
    obtain ⟨rawGroups, keptGroups, groups⟩ :=
      (column_kept f.id given (by decide) rfl).mpr groups
    obtain ⟨rawEdges, keptEdges, edges⟩ :=
      (column_kept f.id given (by decide) rfl).mpr edges
    obtain ⟨rawEvents, keptEvents, events⟩ :=
      (column_kept f.id given (by decide) rfl).mpr events
    obtain ⟨rawVars, keptVars, vars⟩ :=
      (column_kept f.id given (by decide) rfl).mpr vars
    obtain ⟨rawSettings, keptSettings, settings⟩ :=
      (column_kept f.id given (by decide) rfl).mpr settings
    exact ⟨⟨f.id, f.version, rawGroups, rawEdges, rawVars, rawEvents, rawSettings⟩,
      decode_object.mpr ⟨id, version, keptGroups, keptEdges, keptVars, keptEvents, keptSettings⟩,
      toFlow_eq_ok.mpr ⟨rfl, rfl, groups, edges, vars, events, settings, messages⟩⟩

/-- Of an optional member that is missing, nothing is read. -/
theorem Entries.gives_optional_of_absent {α : Type} [Wire α] {key : String} {a : Option α}
    (absent : ∀ e ∈ entries, e.1 ≠ key) : entries.Gives key .optional a ↔ a = none := by
  unfold Gives Shape.Given
  rw [under_eq_nil absent]
  cases a with
  | none => exact ⟨fun _ => rfl, fun _ => rfl⟩
  | some a => exact ⟨nofun, nofun⟩

/-- Both ways to load a flow, in one statement. -/
theorem Definition.decode_toFlow_iff (given : ∀ e ∈ entries, e.1 ∈ columns → e.2 ≠ .null)
    (silent : ∀ e ∈ entries, e.1 ≠ "systemMessages") :
    (∃ d, decode Definition (.object entries) = .ok d ∧ d.toFlow none = .ok f) ↔
      f.systemMessages = f.settings.messages ∧
        decode Flow (.object entries) = .ok { f with systemMessages := none } := by
  have nothing : entries.Gives "systemMessages" .optional (none : Option Messages) :=
    (Entries.gives_optional_of_absent silent).mpr rfl
  rw [decode_toFlow given, Flow.decode_object]
  constructor
  · rintro ⟨id, version, groups, edges, events, vars, settings, messages⟩
    exact ⟨messages, id, version, groups, edges, events, vars, settings, nothing⟩
  · rintro ⟨messages, id, version, groups, edges, events, vars, settings, -⟩
    exact ⟨id, version, groups, edges, events, vars, settings, messages⟩

end

/-- Both ways to load a flow agree. If no column of an object is null and there is no member
`systemMessages`, then the object is read as a definition that stands for a flow if and only if it
is read as a flow; and the two flows are the same, except that the first has the messages of its
settings and the second has none. -/
theorem loading_agrees {entries : Entries}
    (given : ∀ e ∈ entries, e.1 ∈ Definition.columns → e.2 ≠ .null)
    (silent : ∀ e ∈ entries, e.1 ≠ "systemMessages") :
    ((∃ d f, decode Definition (.object entries) = .ok d ∧ d.toFlow none = .ok f) ↔
        ∃ g, decode Flow (.object entries) = .ok g) ∧
      ∀ d f g, decode Definition (.object entries) = .ok d → d.toFlow none = .ok f →
        decode Flow (.object entries) = .ok g →
          f = { g with systemMessages := g.settings.general.bind (·.systemMessages) } ∧
            g.systemMessages = none := by
  have both {f : Flow} := Definition.decode_toFlow_iff (f := f) given silent
  refine ⟨⟨?_, ?_⟩, ?_⟩
  · rintro ⟨d, f, read, stands⟩
    exact ⟨_, (both.mp ⟨d, read, stands⟩).2⟩
  · rintro ⟨g, read⟩
    have silence : g.systemMessages = none :=
      (Entries.gives_optional_of_absent silent).mp (Flow.decode_object.mp read).2.2.2.2.2.2.2
    obtain ⟨d, kept, stands⟩ := (both (f := { g with systemMessages := g.settings.messages })).mpr
      ⟨rfl, by rw [read, ← silence]⟩
    exact ⟨d, _, kept, stands⟩
  · intro d f g kept stands read
    obtain ⟨messages, same⟩ := both.mp ⟨d, kept, stands⟩
    obtain rfl := Except.ok.inj (read.symm.trans same)
    exact ⟨by rw [← Settings.messages, ← messages], rfl⟩

namespace Sample

/-- A flow as it may be written: its columns stand in no order, two are missing, one is a list of
lists, and there is a member that no one reads. -/
def written : Entries :=
  [("settings", .object [("general", .object [("systemMessages",
      .object [("botClosed", .string "bye")])])]),
    ("version", .null), ("note", .array []), ("groups", .array [.array [.string "g"]]),
    ("id", .string "f"),
    ("variables", .array [.object [("name", .string "n"), ("id", .string "v"), ("value", .null)]])]

end Sample

theorem loading_agrees_sample :
    ∃ d f g, decode Definition (.object Sample.written) = .ok d ∧ d.toFlow none = .ok f ∧
      decode Flow (.object Sample.written) = .ok g ∧
      f = { g with systemMessages := some ⟨none, some "bye", none, none, []⟩ } ∧
      g.systemMessages = none := by
  obtain ⟨g, read, messages⟩ : ∃ g, decode Flow (.object Sample.written) = .ok g ∧
      g.settings.general.bind (·.systemMessages) = some ⟨none, some "bye", none, none, []⟩ :=
    ⟨_, rfl, rfl⟩
  obtain ⟨succeeds, same⟩ := @loading_agrees Sample.written
    (by simp [Sample.written, Definition.columns]) (by simp [Sample.written])
  obtain ⟨d, f, kept, stands⟩ := succeeds.mpr ⟨g, read⟩
  obtain ⟨rfl, silent⟩ := same d f g kept stands read
  exact ⟨d, _, g, kept, stands, read, by rw [messages], silent⟩

end Dialogue
