import Dialogue.Proofs.Deeds

/-!
# Previews and live sessions

Whether a session is a preview is not kept anywhere: every frame tells it by its result id, and
every link asks the active frame. The modes never mix nevertheless (`modes_never_mix`). Whatever
answers the requests, all frames of a session that started as a preview are previews, and its
requests only read drafts; in a live session no frame is a preview, and no request reads a draft.
-/

namespace Dialogue

variable {σ α : Type}

/-- Whether a request reads a definition as it is edited. -/
def Call.readsDraft : Call → Bool
  | .getDraft _ => true
  | _ => false

/-! ### Surroundings that note the requests -/

/-- Surroundings with the requests made of them. -/
structure Noted (σ : Type) where
  inner : σ
  calls : List Call

/-- Makes a request and notes it. -/
def noting (call : Call) (r : Request σ α) : Request (Noted σ) α := fun w =>
  let (answer, inner) := r.run w.inner
  (answer, ⟨inner, w.calls ++ [call]⟩)

/-- Answers as a host does, and notes the requests. -/
def Host.noted (host : Host σ) : Host (Noted σ) where
  draft flowId := noting (.getDraft flowId) (host.draft flowId)
  published flowId := noting (.getPublished flowId) (host.published flowId)
  ensure w := noting (.ensureResult w.id) (host.ensure w)
  upsert w := noting (.upsertResult w.id) (host.upsert w)
  freshId := fun w =>
    let (id, inner) := host.freshId w.inner
    (id, ⟨inner, w.calls⟩)

/-- The requests noted have a property. -/
def Noted.All (P : Call → Prop) (w : Noted σ) : Prop := ∀ c ∈ w.calls, P c

theorem noting_alike {P : Call → Prop} {call : Call} (allowed : P call) (r : Request σ α) :
    Alike (Only (Noted.All P)) (noting call r).run fun _ => True := by
  rintro w _ ⟨rfl, all⟩
  refine ⟨rfl, ⟨rfl, fun c hc => ?_⟩, trivial⟩
  rcases List.mem_append.mp hc with hc | hc
  · exact all c hc
  · rwa [List.mem_singleton.mp hc]

/-- If only allowed requests are made, only allowed ones are noted. -/
theorem noted_respects (host : Host σ) (P : Call → Prop) :
    host.noted.Respects P (fun _ => True) (Only (Noted.All P)) where
  draft _ allowed := noting_alike allowed _
  published _ allowed := noting_alike allowed _
  ensure _ allowed := noting_alike allowed _
  upsert _ allowed := noting_alike allowed _
  freshId := by
    rintro w _ ⟨rfl, all⟩
    exact ⟨rfl, ⟨rfl, all⟩, trivial⟩

/-! ### Modes -/

/-- Every frame of the session is of a mode, and so is every request made. -/
structure Scene.InMode (preview : Bool) (scene : Scene (Noted σ)) : Prop where
  frames : ∀ f ∈ scene.session.frames, f.isPreview = preview
  calls : scene.around.All fun c => c.readsDraft = preview

theorem Frame.isPreview_of_live {f : Frame} (live : f.resultId ≠ none) : f.isPreview = false :=
  Option.isNone_eq_false_iff.mpr (Option.isSome_iff_ne_none.mpr live)

/-- The requests that suit a frame are those of its mode. -/
theorem Frame.mayCall_mode {f : Frame} {c : Call} (h : f.mayCall c) :
    c.readsDraft = f.isPreview := by
  have carries {r : String} (h : f.resultId = some r) : f.resultId ≠ none := by simp [h]
  cases c with
  | getDraft flowId => exact (congrArg Option.isNone h).symm
  | getPublished flowId => exact (isPreview_of_live h).symm
  | ensureResult r => exact (isPreview_of_live (carries h)).symm
  | upsertResult r => exact (isPreview_of_live (carries h)).symm

/-- Behind a deed the frames are of the mode that those before it were of. -/
theorem Session.Became.mode {new : String → Prop} {s s' : Session} {d : Deed}
    (h : s.Became new d s') {preview : Bool} (before : ∀ f ∈ s.frames, f.isPreview = preview) :
    ∀ f ∈ s'.frames, f.isPreview = preview := by
  intro f hf
  obtain ⟨k, hk, same | ⟨live, r, carries, -⟩⟩ := h.result hf
  · rw [← before k hk, Frame.isPreview, same, Frame.isPreview]
  · rw [← before k hk, Frame.isPreview_of_live live]
    exact Frame.isPreview_of_live (by simp [carries])

namespace Scene.InMode

variable {preview : Bool} {scene : Scene (Noted σ)}

theorem start (flow : Flow) (resultId : Option String) (inner : σ) :
    InMode resultId.isNone ⟨.start (.root flow resultId), ⟨inner, []⟩⟩ where
  frames f hf := by
    rw [List.mem_singleton.mp hf]
    rfl
  calls _ hc := by cases hc

/-- A deed keeps a session in its mode. -/
theorem perform (h : InMode preview scene) (host : Host σ) (d : Deed) :
    InMode preview (scene.perform host.noted d).2 := by
  have respects := noted_respects host fun c => c.readsDraft = preview
  have fits : ∀ f ∈ scene.session.frames, ∀ c, f.mayCall c → c.readsDraft = preview :=
    fun f hf c call => (Frame.mayCall_mode call).trans (h.frames f hf)
  obtain ⟨calls, became⟩ := Scene.perform_keeps respects fits d h.calls
  exact ⟨became.mode h.frames, calls⟩

/-- A run keeps a session in its mode. -/
theorem play (h : InMode preview scene) (host : Host σ) (deeds : List Deed) :
    InMode preview (scene.play host.noted deeds).2 := by
  induction deeds generalizing scene with
  | nil => exact h
  | cons d deeds ih => exact ih (h.perform host d)

end Scene.InMode

/-- Modes never mix. In every run of a session that starts as a preview all frames stay without a
result id, and all requests read drafts: none is about a result, and none reads a published
definition. In every run of a session that starts with a result id all frames have one, and no
request reads a draft. -/
theorem modes_never_mix (host : Host σ) (flow : Flow) (resultId : Option String) (inner : σ)
    (deeds : List Deed) :
    let scene := (Scene.play host.noted ⟨.start (.root flow resultId), ⟨inner, []⟩⟩ deeds).2
    (∀ f ∈ scene.session.frames, f.resultId.isNone = resultId.isNone) ∧
      ∀ c ∈ scene.around.calls, c.readsDraft = resultId.isNone := by
  have h := (Scene.InMode.start flow resultId inner).play host deeds
  exact ⟨h.frames, h.calls⟩

namespace Sample

/-- Stores in which the survey and the audit are drafts as well. -/
def drafted : Memory :=
  (memory.insertDraft { questions with id := "survey" }).insertDraft
    { questions with id := "audit" }

/-- Joins the survey, answers, makes a fork from there and returns from it. -/
def visiting : List Deed :=
  [.execute .default join, .editAnswers (· ++ [⟨"age", "36", none⟩]), .execute .default fork,
    .next none]

end Sample

/-- The same deeds read both drafts in a preview, while a live session reads what is published and
records its results. -/
theorem modes_never_mix_sample :
    (∃ scene, scene = (Scene.play Memory.host.noted
          ⟨.start (.root Sample.flow none), ⟨Sample.drafted, []⟩⟩ Sample.visiting).2 ∧
        scene.around.calls = [.getDraft "survey", .getDraft "audit"] ∧
        ∀ f ∈ scene.session.frames, f.resultId.isNone = true) ∧
      ∃ scene, scene = (Scene.play Memory.host.noted
          ⟨.start (.root Sample.flow (some "r")), ⟨Sample.drafted, []⟩⟩ Sample.visiting).2 ∧
        scene.around.calls = [.getPublished "survey", .ensureResult "r", .getPublished "audit",
          .upsertResult "iii"] ∧
        ∀ f ∈ scene.session.frames, f.resultId.isNone = false :=
  ⟨⟨_, rfl, by decide +kernel,
      (modes_never_mix Memory.host Sample.flow none Sample.drafted Sample.visiting).1⟩,
    ⟨_, rfl, by decide +kernel,
      (modes_never_mix Memory.host Sample.flow (some "r") Sample.drafted Sample.visiting).1⟩⟩

end Dialogue
