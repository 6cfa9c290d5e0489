import Mathlib.Data.List.ReduceOption
import Dialogue.Proofs.Deeds
import Dialogue.Proofs.RoundTrip
import Dialogue.Session.Wire

/-!
# Storing a session between turns

A session may be written and read again between any two steps, which changes nothing
(`storing_changes_nothing`). What has been read is stable, and so is every flow that a definition
stands for; the engine makes no other sessions of stable ones, as the values that it copies from
variable to variable are values that some variable has (`Session.Became.stable`).
-/

namespace Dialogue

variable {σ : Type}

/-! ### Stable parts of a session -/

theorem Variable.stable_iff {v : Variable} : Wire.Stable v ↔ v.value ≠ some .null := by
  obtain ⟨id, name, value⟩ := v
  cases value with
  | none => exact ⟨fun _ => nofun, fun _ => ⟨trivial, trivial, trivial, trivial⟩⟩
  | some j =>
    refine ⟨fun ⟨_, _, ⟨given, _⟩, _⟩ null => given (Option.some.inj null), fun given => ?_⟩
    exact ⟨trivial, trivial, ⟨fun null => given (congrArg some null), trivial⟩, trivial⟩

/-- A flow is stable if its groups, its variables and what it says of messages are. -/
theorem Flow.stable_iff {f : Flow} : Wire.Stable f ↔ Wire.Stable f.groups ∧ Wire.Stable f.vars ∧
    Wire.Stable f.settings ∧ Wire.Stable f.systemMessages := by
  constructor
  · rintro ⟨-, -, groups, -, -, vars, settings, messages, -⟩
    exact ⟨groups, vars, settings, messages⟩
  · rintro ⟨groups, vars, settings, messages⟩
    exact ⟨trivial, Wire.stable_of_plain rfl f.version, groups, Wire.stable_of_plain rfl f.edges,
      Wire.stable_of_plain rfl f.events, vars, settings, messages, trivial⟩

theorem Frame.stable_iff {f : Frame} : Wire.Stable f ↔ Wire.Stable f.flow := by
  constructor
  · rintro ⟨flow, -⟩
    exact flow
  · intro flow
    exact ⟨flow, Wire.stable_of_plain rfl f.resultId, Wire.stable_of_plain rfl f.returnEdgeId,
      Wire.stable_of_plain rfl f.answers, trivial, trivial⟩

theorem Session.stable_iff {s : Session} : Wire.Stable s ↔
    (∀ f ∈ s.frames, Wire.Stable f) ∧ ∀ e ∈ s.extra, e.1 ∉ ["typebotsQueue"] := by
  rw [← Wire.stable_list]
  constructor
  · rintro ⟨⟨frames, -⟩, extra⟩
    exact ⟨frames, extra⟩
  · rintro ⟨frames, extra⟩
    exact ⟨⟨frames, trivial⟩, extra⟩

theorem Settings.stable_messages {s : Settings} (h : Wire.Stable s) : Wire.Stable s.messages := by
  obtain ⟨general, extra⟩ := s
  cases general with
  | none => exact Wire.stable_none
  | some g =>
    obtain ⟨⟨⟨-, ⟨messages, -⟩, -⟩, -⟩, -⟩ := h
    exact messages

/-! ### Flows that are found -/

/-- A flow that a definition stands for is stable. -/
theorem Definition.toFlow_stable {d : Definition} {override : Option String} {f : Flow}
    (h : d.toFlow override = .ok f) : Wire.Stable f := by
  obtain ⟨-, -, groups, -, vars, -, settings, messages⟩ := toFlow_eq_ok.mp h
  have none : Wire.Stable Settings.empty := ⟨⟨trivial, trivial⟩, nofun⟩
  have stable := column_stable none settings
  rw [Flow.stable_iff, messages]
  exact ⟨column_stable Wire.stable_nil groups, column_stable Wire.stable_nil vars, stable,
    Settings.stable_messages stable⟩

/-! ### What the engine does to stable flows -/

section

variable {f g top parent finished : Flow} {v w : Variable}

theorem Variable.stable_of_hasValue (h : v.hasValue = true) : Wire.Stable v := by
  rw [stable_iff]
  rintro null
  simp [hasValue, null] at h

theorem Flow.stable_vars (h : Wire.Stable f) : ∀ v ∈ f.vars, Wire.Stable v :=
  Wire.stable_list.mp (stable_iff.mp h).2.1

theorem Flow.stable_withEdge (h : Wire.Stable f) (e : Edge) : Wire.Stable (f.withEdge e) := by
  have parts := stable_iff.mp h
  exact stable_iff.mpr parts

theorem Flow.stable_withVariables (h : Wire.Stable f) {vs : List Variable}
    (vars : ∀ v ∈ vs, Wire.Stable v) : Wire.Stable (f.withVariables vs) := by
  obtain ⟨groups, -, settings, messages⟩ := stable_iff.mp h
  exact stable_iff.mpr ⟨groups, Wire.stable_list.mpr vars, settings, messages⟩

/-- Filled variables have the values of others. -/
theorem stable_fill {frames : List Frame} (h : ∀ f ∈ frames, Wire.Stable f)
    (declared : List Variable) : ∀ v ∈ fill declared frames, Wire.Stable v := by
  intro v hv
  obtain ⟨u, -, rfl⟩ := List.mem_map.mp hv
  rw [Variable.stable_iff]
  intro null
  obtain ⟨near, found, value⟩ := Option.bind_eq_some_iff.mp null
  obtain ⟨f, hf, named⟩ := List.exists_of_findSome?_eq_some found
  have stable := Flow.stable_vars (Frame.stable_iff.mp (h f hf)) near
    (List.mem_of_find?_eq_some named)
  exact Variable.stable_iff.mp stable value

/-- Values that are handed back are values of the finished flow. -/
theorem Frame.stable_absorb {parent finished : Frame} (h : Wire.Stable parent)
    (h' : Wire.Stable finished) : Wire.Stable (parent.absorb finished) := by
  have flow := Frame.stable_iff.mp h
  refine Frame.stable_iff.mpr (Flow.stable_withVariables flow fun v hv => ?_)
  rcases List.mem_append.mp hv with hv | hv
  · obtain ⟨u, hu, rfl⟩ := List.mem_map.mp hv
    unfold Variable.updated
    cases found : finished.flow.varNamed? u.name with
    | none => exact Flow.stable_vars flow u hu
    | some w =>
      dsimp only
      split
      · have stable := Flow.stable_vars (Frame.stable_iff.mp h') w (List.mem_of_find?_eq_some found)
        exact Variable.stable_iff.mpr (Variable.stable_iff.mp stable)
      · exact Flow.stable_vars flow u hu
  · have value := (List.mem_filter.mp hv).2
    exact Variable.stable_of_hasValue (Bool.and_eq_true_iff.mp value).1

end

/-! ### What a deed makes of a stable session -/

section

variable {new : String → Prop} {current top : Frame} {beneath frames : List Frame}
  {s s' : Session} {d : Deed}

theorem Frame.stable_withEdge {f : Frame} (h : Wire.Stable f) (e : Edge) :
    Wire.Stable (f.withEdge e) :=
  stable_iff.mpr (Flow.stable_withEdge (stable_iff.mp h) e)

theorem Pushed.stable (h : Pushed new current beneath frames)
    (stable : ∀ f ∈ current :: beneath, Wire.Stable f) : ∀ f ∈ frames, Wire.Stable f := by
  have active := stable current List.mem_cons_self
  have waiting {caller : Frame} (waits : current.Waits caller) :
      ∀ f ∈ caller :: beneath, Wire.Stable f := by
    intro f hf
    rcases List.mem_cons.mp hf with rfl | hf
    · rcases waits with rfl | ⟨id, t, rfl⟩
      · exact active
      · exact Frame.stable_withEdge active _
    · exact stable f (List.mem_cons_of_mem _ hf)
  cases h with
  | again caller back id groupId waits =>
    intro f hf
    rcases List.mem_cons.mp hf with rfl | hf
    · exact Frame.stable_iff.mpr (Flow.stable_withEdge (Frame.stable_iff.mp active) _)
    · exact waiting waits f hf
  | other caller back id groupId waits d name linked decoded result carries merges =>
    intro f hf
    rcases List.mem_cons.mp hf with rfl | hf
    · have filled := Flow.stable_withVariables (Definition.toFlow_stable decoded)
        (stable_fill stable linked.vars)
      exact Frame.stable_iff.mpr (Flow.stable_withEdge filled _)
    · exact waiting waits f hf

theorem unwind_stable (stable : ∀ f ∈ top :: beneath, Wire.Stable f) (edgeId : Option String) :
    ∀ f ∈ (unwind top beneath edgeId).frames, Wire.Stable f := by
  refine unwind_frames (P := fun fs => ∀ f ∈ fs, Wire.Stable f) ?_ beneath top edgeId stable
  intro top parent beneath stable f hf
  have under := stable parent (by simp)
  rcases List.mem_cons.mp hf with rfl | hf
  · unfold Frame.resumed
    split
    · exact Frame.stable_absorb under (stable top List.mem_cons_self)
    · exact under
  · exact stable f (List.mem_cons_of_mem _ (List.mem_cons_of_mem _ hf))

/-- A driver gives no variable the value null, unless one had it. -/
def Deed.Storable : Deed → Prop
  | .editVars edit => ∀ vars : List Variable, (∀ v ∈ vars, v.value ≠ some .null) →
      ∀ v ∈ edit vars, v.value ≠ some .null
  | _ => True

theorem Session.stable_onTop (stable : Wire.Stable s) {change : Frame → Frame}
    (keeps : ∀ f, Wire.Stable f → Wire.Stable (change f)) : Wire.Stable (s.onTop change) := by
  obtain ⟨frames, extra⟩ := s
  cases frames with
  | nil => exact stable
  | cons top beneath =>
    obtain ⟨frames, others⟩ := Session.stable_iff.mp stable
    refine Session.stable_iff.mpr ⟨fun f hf => ?_, others⟩
    rcases List.mem_cons.mp hf with rfl | hf
    · exact keeps top (frames top List.mem_cons_self)
    · exact frames f (List.mem_cons_of_mem _ hf)

/-- A deed makes a stable session of a stable one. -/
theorem Session.Became.stable (h : s.Became new d s') (stable : Wire.Stable s)
    (storable : d.Storable) : Wire.Stable s' := by
  obtain ⟨frames, others⟩ := Session.stable_iff.mp stable
  cases h with
  | idle d => exact stable
  | pushed d h =>
    obtain ⟨extra, current, beneath, before, pushed⟩ := h
    rw [before] at frames
    exact Session.stable_iff.mpr ⟨pushed.stable frames, extra ▸ others⟩
  | returned edgeId h =>
    obtain ⟨extra, top, beneath, before, left⟩ := h
    rw [before] at frames
    exact Session.stable_iff.mpr ⟨left ▸ unwind_stable frames edgeId, extra ▸ others⟩
  | varsEdited edit =>
    refine Session.stable_onTop stable fun f hf => Frame.stable_iff.mpr ?_
    have flow := Frame.stable_iff.mp hf
    have values := storable f.flow.vars fun v hv =>
      Variable.stable_iff.mp (Flow.stable_vars flow v hv)
    exact Flow.stable_withVariables flow fun v hv => Variable.stable_iff.mpr (values v hv)
  | answersEdited edit =>
    refine Session.stable_onTop stable fun f hf => ?_
    have flow := Frame.stable_iff.mp hf
    exact Frame.stable_iff.mpr flow

end

/-! ### Runs that store their session -/

namespace Scene

/-- Does some deeds in order and, where there is none to do, writes the session and reads it again.
The reading may fail. -/
def playStoring (host : Host σ) : Scene σ → List (Option Deed) →
    Except Mismatch (List (Except Fault Response × Session) × Scene σ)
  | scene, [] => .ok ([], scene)
  | scene, none :: acts => do
    let s ← decode Session (encode scene.session)
    playStoring host ⟨s, scene.around⟩ acts
  | scene, some d :: acts => do
    let (response, next) := scene.perform host d
    let (seen, last) ← playStoring host next acts
    return ((response, next.session) :: seen, last)

variable {host : Host σ} {scene : Scene σ}

/-- Whatever answers the requests, a deed makes a stable session of a stable one. -/
theorem perform_stable (stable : Wire.Stable scene.session) {d : Deed} (storable : d.Storable) :
    Wire.Stable (scene.perform host d).2.session :=
  (perform_keeps host.respects_all (fun _ _ _ _ => trivial) d trivial).2.stable stable storable

theorem play_stable (deeds : List Deed) (stable : Wire.Stable scene.session)
    (storable : ∀ d ∈ deeds, d.Storable) : Wire.Stable (scene.play host deeds).2.session := by
  induction deeds generalizing scene with
  | nil => exact stable
  | cons d deeds ih =>
    exact ih (perform_stable stable (storable d List.mem_cons_self))
      fun d hd => storable d (List.mem_cons_of_mem _ hd)

theorem reread (stable : Wire.Stable scene.session) :
    decode Session (encode scene.session) = .ok scene.session := decode_encode rfl stable

/-- A run that stores its session comes to the same as one that does not. -/
theorem playStoring_eq (acts : List (Option Deed)) (stable : Wire.Stable scene.session)
    (storable : ∀ d, some d ∈ acts → d.Storable) :
    scene.playStoring host acts = .ok (scene.play host acts.reduceOption) := by
  induction acts generalizing scene with
  | nil => rfl
  | cons act acts ih =>
    have later : ∀ d, some d ∈ acts → d.Storable :=
      fun d hd => storable d (List.mem_cons_of_mem _ hd)
    cases act with
    | none =>
      -- what is read is the session that was written, and so it is stable again
      rw [playStoring, reread stable]
      exact ih stable later
    | some d =>
      have next : Wire.Stable (scene.perform host d).2.session :=
        perform_stable stable (storable d List.mem_cons_self)
      simp only [playStoring, ih next later]
      rfl

end Scene

/-- What is written of anything that was read reads as it was. -/
def Reloads (α : Type) [Wire α] : Prop :=
  ∀ (j : Json) (a : α), decode α j = .ok a → decode α (encode a) = .ok a

theorem reloads {α : Type} [Wire α] (sound : (Wire.shape α).sound = true) : Reloads α :=
  fun _ _ read => decode_encode sound (stable_of_decode read)

/-- To store a session between turns changes nothing. Whatever has been read as a session, a
definition, a log entry, the options of a link, a configuration or a record of a result is read from
what is written of it as well. So is every state of a session that comes of one that was read,
whatever answers the requests of the engine; and a run that writes its session and reads it again
between any of its steps meets the same responses and states as one that does not. -/
theorem storing_changes_nothing :
    (Reloads Session ∧ Reloads Definition ∧ Reloads Log ∧ Reloads LinkOptions ∧ Reloads Config ∧
        Reloads ResultRow) ∧
      ∀ (σ : Type) (host : Host σ) (j : Json) (s : Session) (w : σ) (acts : List (Option Deed)),
        decode Session j = .ok s → (∀ d, some d ∈ acts → d.Storable) →
          let run := Scene.play host ⟨s, w⟩ acts.reduceOption
          decode Session (encode run.2.session) = .ok run.2.session ∧
            Scene.playStoring host ⟨s, w⟩ acts = .ok run := by
  refine ⟨⟨reloads rfl, reloads rfl, reloads rfl, reloads rfl, reloads rfl, reloads rfl⟩, ?_⟩
  intro σ host j s w acts read storable run
  have stable : Wire.Stable s := stable_of_decode read
  refine ⟨Scene.reread (Scene.play_stable acts.reduceOption stable fun d hd => ?_),
    Scene.playStoring_eq acts stable storable⟩
  exact storable d (List.reduceOption_mem_iff.mp hd)

namespace Sample

/-- A session as it may be stored: its flow is an array that ends early, a variable is null, and
there is an entry that no one reads. -/
def stored : Json :=
  .object [
    ("typebotsQueue", .array [.object [
      ("resultId", .string "r"),
      ("typebot", .array [.string "f", .null, .array [.object [("id", .string "g")]],
        .array [], .array [],
        .array [.object [("id", .string "v"), ("name", .string "n"), ("value", .null)]]])]]),
    ("note", .array [.null])]

/-- Joins the survey and returns, and stores the session before, between and after. -/
def storing : List (Option Deed) :=
  [none, some (.link .default join), none, some (.next none), none]

theorem storing_storable : ∀ d, some d ∈ storing → d.Storable := by
  intro d hd
  have deeds : d = .link .default join ∨ d = .next none := by simpa [storing] using hd
  rcases deeds with rfl | rfl <;> trivial

end Sample

theorem storing_changes_nothing_sample :
    ∃ s run, decode Session Sample.stored = .ok s ∧
      run = Scene.play Memory.host ⟨s, Sample.memory⟩ [.link .default Sample.join, .next none] ∧
      decode Session (encode run.2.session) = .ok run.2.session ∧
      Scene.playStoring Memory.host ⟨s, Sample.memory⟩ Sample.storing = .ok run := by
  obtain ⟨s, read⟩ : ∃ s, decode Session Sample.stored = .ok s := ⟨_, rfl⟩
  exact ⟨s, _, read, rfl, storing_changes_nothing.2 Memory Memory.host Sample.stored s
    Sample.memory Sample.storing read Sample.storing_storable⟩

end Dialogue
