import Dialogue.Proofs.Moves
import Dialogue.Proofs.Surroundings

/-!
# Deeds of a driver

A driver executes blocks, follows edges and edits the active frame, whatever answers the requests of
the engine. `Became` says once what a deed can make of a session. In related surroundings a deed
comes to the same (`Scene.perform_related`), if the requests that suit the frames of the session are
answered alike.
-/

namespace Dialogue

variable {σ : Type}

/-- Something that a driver does. -/
inductive Deed where
  /-- Executes a block by the default registry. -/
  | execute (config : Config) (b : Block)
  /-- Executes a block as a link, whatever its type. -/
  | link (config : Config) (b : Block)
  | next (edgeId : Option String)
  /-- Edits the variables of the active frame. -/
  | editVars (edit : List Variable → List Variable)
  /-- Edits the answers of the active frame. -/
  | editAnswers (edit : List Answer → List Answer)

/-- What comes of a deed. -/
inductive Response where
  | replied (r : Reply)
  | arrived (n : Next)
  | edited

namespace Frame

/-- The frame with its variables edited. -/
def editVars (edit : List Variable → List Variable) (f : Frame) : Frame :=
  f.withVars (edit f.flow.vars)

/-- The frame with its answers edited. -/
def editAnswers (edit : List Answer → List Answer) (f : Frame) : Frame :=
  f.withAnswers (edit f.answers)

end Frame

/-- Does a deed; answers what comes of it, and the session behind it. -/
def Host.perform (host : Host σ) (s : Session) : Deed → Engine σ (Response × Session)
  | .execute config b =>
    (fun r => (.replied r, r.session.getD s)) <$> Registry.default.execute host config s b
  | .link config b => (fun r => (.replied r, r.session.getD s)) <$> host.link config s b
  | .next edgeId => (fun n => (.arrived n, n.session)) <$> host.next s edgeId
  | .editVars edit => pure (.edited, s.onTop (.editVars edit))
  | .editAnswers edit => pure (.edited, s.onTop (.editAnswers edit))

/-- What a deed can make of a session. -/
inductive Session.Became (new : String → Prop) (s : Session) : Deed → Session → Prop
  | idle (d : Deed) : Became new s d s
  | pushed (d : Deed) {s' : Session} (h : s.Pushed new s') : Became new s d s'
  | returned (edgeId : Option String) {s' : Session} (h : s.Returned s' edgeId) :
    Became new s (.next edgeId) s'
  | varsEdited (edit : List Variable → List Variable) :
    Became new s (.editVars edit) (s.onTop (.editVars edit))
  | answersEdited (edit : List Answer → List Answer) :
    Became new s (.editAnswers edit) (s.onTop (.editAnswers edit))

section

variable {host : Host σ} {allowed : Call → Prop} {new : String → Prop} {R : σ → σ → Prop}
  {s s' : Session} {d : Deed}

theorem Session.onTop_result (change : Frame → Frame)
    (keeps : ∀ f, (change f).resultId = f.resultId) {f : Frame} (hf : f ∈ (s.onTop change).frames) :
    ∃ k ∈ s.frames, f.resultId = k.resultId := by
  obtain ⟨frames, extra⟩ := s
  cases frames with
  | nil => cases hf
  | cons top beneath =>
    rcases List.mem_cons.mp hf with rfl | hf
    · exact ⟨top, List.mem_cons_self, keeps top⟩
    · exact ⟨f, List.mem_cons_of_mem _ hf, rfl⟩

/-- Every frame behind a deed carries a result that was carried before, or a new one in a live
session. -/
theorem Session.Became.result (h : s.Became new d s') {f : Frame} (hf : f ∈ s'.frames) :
    ∃ k ∈ s.frames, f.resultId = k.resultId ∨
      k.resultId ≠ none ∧ ∃ r, f.resultId = some r ∧ new r := by
  have old (h : ∃ k ∈ s.frames, f.resultId = k.resultId) : ∃ k ∈ s.frames,
      f.resultId = k.resultId ∨ k.resultId ≠ none ∧ ∃ r, f.resultId = some r ∧ new r := by
    obtain ⟨k, hk, same⟩ := h
    exact ⟨k, hk, .inl same⟩
  cases h with
  | idle d => exact old ⟨f, hf, rfl⟩
  | pushed d h =>
    obtain ⟨-, current, beneath, frames, pushed⟩ := h
    rw [frames]
    rcases pushed.result hf with before | ⟨live, isNew⟩
    · obtain ⟨k, hk, same⟩ := before
      exact ⟨k, hk, .inl same⟩
    · exact ⟨current, List.mem_cons_self, .inr ⟨live, isNew⟩⟩
  | returned edgeId h =>
    obtain ⟨-, top, beneath, frames, left⟩ := h
    rw [left] at hf
    obtain ⟨k, hk, same, -⟩ := unwind_kept (List.mem_append_right _ hf)
    rw [← frames] at hk
    exact old ⟨k, hk, same.symm⟩
  | varsEdited edit => exact old (Session.onTop_result (.editVars edit) (fun _ => rfl) hf)
  | answersEdited edit => exact old (Session.onTop_result (.editAnswers edit) (fun _ => rfl) hf)

/-- What a block answers, a driver adopts. -/
theorem Runs.adopt {x : Engine σ Reply}
    (h : Runs R x fun reply => ∀ s', reply.session = some s' → s.Pushed new s') :
    Runs R ((fun r => (Response.replied r, r.session.getD s)) <$> x) fun r =>
      s.Became new d r.2 := by
  refine h.map fun reply pushed => ?_
  cases session : reply.session with
  | none => exact .idle d
  | some s' => exact .pushed d (pushed s' session)

theorem runs_perform (h : host.Respects allowed new R)
    (fits : ∀ f ∈ s.frames, ∀ c, f.mayCall c → allowed c) (d : Deed) :
    Runs R (host.perform s d) fun r => s.Became new d r.2 := by
  cases d with
  | execute config b => exact (runs_execute h fits config b).adopt
  | link config b => exact (runs_link h fits config b).adopt
  | next edgeId => exact (runs_next h fits edgeId).map fun n returned => .returned edgeId returned
  | editVars edit => exact .pure (.varsEdited edit)
  | editAnswers edit => exact .pure (.answersEdited edit)

end

/-! ### Scenes -/

/-- A session in its surroundings. -/
structure Scene (σ : Type) where
  session : Session
  around : σ

namespace Scene

/-- Does a deed. After a fault the session is what it was. -/
def perform (host : Host σ) (scene : Scene σ) (d : Deed) : Except Fault Response × Scene σ :=
  match exec (host.perform scene.session d) scene.around with
  | (.ok (response, s), w) => (.ok response, ⟨s, w⟩)
  | (.error f, w) => (.error f, ⟨scene.session, w⟩)

/-- Does some deeds in order; answers what comes of each, and the session behind it. -/
def play (host : Host σ) :
    Scene σ → List Deed → List (Except Fault Response × Session) × Scene σ
  | scene, [] => ([], scene)
  | scene, d :: deeds =>
    let (response, next) := scene.perform host d
    let (seen, last) := next.play host deeds
    ((response, next.session) :: seen, last)

variable {host : Host σ} {allowed : Call → Prop} {new : String → Prop} {R : σ → σ → Prop}
  {here there : Scene σ}

/-- In related surroundings a deed comes to the same. -/
theorem perform_related (h : host.Respects allowed new R) (same : here.session = there.session)
    (fits : ∀ f ∈ here.session.frames, ∀ c, f.mayCall c → allowed c) (d : Deed)
    (related : R here.around there.around) :
    (here.perform host d).1 = (there.perform host d).1 ∧
      (here.perform host d).2.session = (there.perform host d).2.session ∧
      R (here.perform host d).2.around (there.perform host d).2.around ∧
      here.session.Became new d (here.perform host d).2.session := by
  obtain ⟨s, w⟩ := here
  obtain ⟨_, v⟩ := there
  obtain rfl := same
  obtain ⟨same, later, became⟩ := runs_perform h fits d w v related
  simp only [perform]
  generalize exec (host.perform s d) w = left at same later became ⊢
  generalize exec (host.perform s d) v = right at same later ⊢
  obtain ⟨result, w'⟩ := left
  obtain ⟨_, v'⟩ := right
  obtain rfl := same
  cases result with
  | error f => exact ⟨rfl, rfl, later, .idle d⟩
  | ok r => exact ⟨rfl, rfl, later, became r rfl⟩

/-- In surroundings with a property that the requests keep, a deed keeps it. -/
theorem perform_keeps {I : σ → Prop} (h : host.Respects allowed new (Only I))
    (fits : ∀ f ∈ here.session.frames, ∀ c, f.mayCall c → allowed c) (d : Deed)
    (holds : I here.around) :
    I (here.perform host d).2.around ∧
      here.session.Became new d (here.perform host d).2.session := by
  obtain ⟨-, -, later, became⟩ := perform_related h rfl fits d ⟨rfl, holds⟩
  exact ⟨later.2, became⟩

end Scene

end Dialogue
