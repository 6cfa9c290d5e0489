import Mathlib.Data.List.Infix
import Dialogue.Proofs.Keeping
import Dialogue.Proofs.Scoping

/-!
# Names of variables

If no flow that a session starts from declares a name twice, then no flow of the stack ever does,
although finished frames leave their variables to the frames beneath. A frame keeps what it declares
while it is on the stack: in front of all that it takes over stand its own variables, in their order
and with their ids (`names_apart`). Frames are told apart by their level, counted from the deepest.
-/

namespace Dialogue

/-- No two variables of the flow bear the same name. -/
def Flow.NamesApart (f : Flow) : Prop := (f.vars.map (·.name)).Nodup

/-- What is declared by some variables: their ids and names, in order. -/
def declarations (vars : List Variable) : List (String × String) := vars.map fun v => (v.id, v.name)

/-- What a frame declares. -/
def Frame.declared (f : Frame) : List (String × String) := declarations f.flow.vars

/-- The frame at a level of a stack; the deepest is at level zero. -/
def frameAt? (frames : List Frame) (level : ℕ) : Option Frame := frames.reverse[level]?

/-- What may be done to a session whose names are to stay apart: the driver gives other values to
the variables that the active frame has, and the definitions to be stored have no name twice. -/
def World.Permits (w : World) : Move → Prop
  | .setVars vars =>
    ∀ current, w.session.active? = some current → declarations vars = current.declared
  | .restock drafts published =>
    Memory.Stores (fun _ => Flow.NamesApart)
      { w.memory with drafts := drafts, published := published }
  | _ => True

/-- Each of some moves may be made when its turn comes. -/
def World.Permitted (config : Config) : World → List Move → Prop
  | _, [] => True
  | w, mv :: moves => w.Permits mv ∧ World.Permitted config (w.move config mv) moves

/-- No flow of the stack or of the stores has a name twice. -/
structure World.Named (w : World) : Prop where
  active : w.session.frames ≠ []
  stored : w.memory.Stores fun _ => Flow.NamesApart
  frames : ∀ f ∈ w.session.frames, f.flow.NamesApart

/-! ### Variables that are filled and handed over -/

section

variable {f g : Flow} {parent finished : Frame}

/-- Whether names are apart is up to what is declared. -/
theorem Flow.NamesApart.of_declarations (h : f.NamesApart)
    (same : declarations g.vars = declarations f.vars) : g.NamesApart := by
  have names : g.vars.map (·.name) = f.vars.map (·.name) := by
    simpa [declarations, Function.comp_def] using congrArg (List.map Prod.snd) same
  rw [NamesApart, names]
  exact h

theorem declarations_fill (declared : List Variable) (frames : List Frame) :
    declarations (fill declared frames) = declarations declared := by
  simp [declarations, fill, Variable.filled, Function.comp_def]

theorem declarations_updated (finished : Flow) (vars : List Variable) :
    declarations (vars.map (Variable.updated finished)) = declarations vars := by
  have same (v : Variable) : (v.updated finished).id = v.id := by
    unfold Variable.updated
    split
    · split <;> rfl
    · rfl
  simp [declarations, same, Function.comp_def]

/-- The frame beneath keeps what it declares, in front of what it takes over. -/
theorem Frame.declared_absorb (parent finished : Frame) :
    (parent.absorb finished).declared =
      parent.declared ++ declarations (parent.flow.undeclared finished.flow.vars) := by
  have own := declarations_updated finished.flow parent.flow.vars
  rw [declared, declared, ← own]
  exact List.map_append

theorem Frame.declared_resumed (parent finished : Frame) :
    parent.declared <+: (parent.resumed finished).declared := by
  unfold resumed
  split
  · rw [declared_absorb]
    exact List.prefix_append ..
  · exact List.prefix_refl _

/-- What is taken over bears names that were not declared. -/
theorem Flow.NamesApart.absorb (h : parent.flow.NamesApart) (h' : finished.flow.NamesApart) :
    (parent.absorb finished).flow.NamesApart := by
  have own : (parent.flow.vars.map (Variable.updated finished.flow)).map (·.name) =
      parent.flow.vars.map (·.name) := by simp [Function.comp_def]
  have taken : ((parent.flow.undeclared finished.flow.vars).map (·.name)).Sublist
      (finished.flow.vars.map (·.name)) := List.filter_sublist.map _
  change (List.map _ (_ ++ _)).Nodup
  rw [List.map_append, own]
  refine List.nodup_append.mpr ⟨h, h'.sublist taken, ?_⟩
  intro name declared name' handed
  rintro rfl
  -- a variable is taken over only if no variable of the parent bears its name
  obtain ⟨v, hv, named⟩ := List.mem_map.mp declared
  obtain ⟨u, hu, rfl⟩ := List.mem_map.mp handed
  have lacks : parent.flow.varNamed? u.name = none := by
    simpa using (Bool.and_eq_true_iff.mp (List.mem_filter.mp hu).2).2
  exact List.find?_eq_none.mp lacks v hv (by simp [named])

theorem Flow.NamesApart.resumed (h : parent.flow.NamesApart) (h' : finished.flow.NamesApart) :
    (parent.resumed finished).flow.NamesApart := by
  unfold Frame.resumed
  split
  · exact h.absorb h'
  · exact h

end

/-! ### Levels -/

section

variable {f g top parent : Frame} {beneath before : List Frame} {level : ℕ}

theorem frameAt?_cons (f : Frame) (beneath : List Frame) (level : ℕ) :
    frameAt? (f :: beneath) level =
      if level = beneath.length then some f else frameAt? beneath level := by
  rw [frameAt?, frameAt?, List.reverse_cons]
  split_ifs with here
  · rw [here, List.getElem?_append_right (by simp)]
    simp
  · rcases Nat.lt_or_ge level beneath.length with under | above
    · exact List.getElem?_append_left (by simpa using under)
    · rw [List.getElem?_eq_none (by simp; omega), List.getElem?_eq_none (by simpa using above)]

theorem lt_of_frameAt? {frames : List Frame} (h : frameAt? frames level = some f) :
    level < frames.length := by
  simpa using (List.getElem?_eq_some_iff.mp h).1

theorem exists_frameAt? {frames : List Frame} (h : level < frames.length) :
    ∃ f, frameAt? frames level = some f :=
  ⟨_, List.getElem?_eq_getElem (by simpa using h)⟩

/-- At each level that there is before and after, a frame declares what it did before, and maybe
more. -/
def Redeclares (before after : List Frame) : Prop :=
  ∀ level f g, frameAt? before level = some f → frameAt? after level = some g →
    f.declared <+: g.declared

namespace Redeclares

theorem refl (frames : List Frame) : Redeclares frames frames := by
  intro level f g hf hg
  rw [Option.some.inj (hf.symm.trans hg)]

theorem head (kept : f.declared <+: g.declared) : Redeclares (f :: beneath) (g :: beneath) := by
  intro level a b ha hb
  rw [frameAt?_cons] at ha hb
  split_ifs at ha hb
  · cases ha
    cases hb
    exact kept
  · exact refl beneath level a b ha hb

theorem push (kept : f.declared <+: g.declared) :
    Redeclares (f :: beneath) (top :: g :: beneath) := by
  intro level a b ha hb
  rw [frameAt?_cons] at hb
  split_ifs at hb with pushed
  · have under := lt_of_frameAt? ha
    simp only [List.length_cons] at pushed under
    omega
  · exact head kept level a b ha hb

theorem pop (h : Redeclares before (top :: parent :: beneath))
    (kept : parent.declared <+: g.declared) : Redeclares before (g :: beneath) := by
  intro level a b ha hb
  have under := lt_of_frameAt? hb
  have room : level < (parent :: beneath).length := under
  obtain ⟨c, hc⟩ := exists_frameAt? room
  have still : frameAt? (top :: parent :: beneath) level = some c := by
    rw [frameAt?_cons, if_neg (Nat.ne_of_lt room), hc]
  exact (h level a c ha still).trans (head kept level c b hc hb)

end Redeclares

end

/-! ### Moves -/

section

variable {config : Config} {current : Frame} {beneath : List Frame} {extra : Entries} {m : Memory}
  {mv : Move} {w : World}

theorem Turn.active (done : Turn config current beneath extra m mv w) : w.session.frames ≠ [] := by
  cases done with
  | returned edgeId u unwound =>
    subst unwound
    exact unwind_frames_ne_nil beneath current edgeId
  | _ => exact List.cons_ne_nil _ _

/-- A move that stores nothing leaves what is found. -/
theorem Turn.found (done : Turn config current beneath extra m mv w)
    (unstocked : ∀ drafts published, mv ≠ .restock drafts published) (preview : Bool)
    (flowId : String) : w.memory.found preview flowId = m.found preview flowId := by
  cases done with
  | other => exact Memory.found_congr (Memory.opened_drafts _ _) (Memory.opened_published _ _) ..
  | restocked drafts published => exact absurd rfl (unstocked drafts published)
  | _ => exact Memory.found_congr rfl rfl ..

end

namespace World

variable {w : World} {mv : Move} {config : Config}

theorem Named.start {flow : Flow} {m : Memory} (resultId : Option String) (root : flow.NamesApart)
    (stored : m.Stores fun _ => Flow.NamesApart) : (World.start flow resultId m).Named where
  active := List.cons_ne_nil _ _
  stored := stored
  frames f hf := by
    obtain rfl := List.mem_singleton.mp hf
    exact root

/-- Names stay apart on the stack. -/
theorem Named.move_frames (config : Config) (h : w.Named) (permits : w.Permits mv) :
    ∀ f ∈ (w.move config mv).session.frames, f.flow.NamesApart := by
  obtain ⟨⟨frames, extra⟩, m⟩ := w
  obtain ⟨current, beneath, rfl⟩ := List.exists_cons_of_ne_nil h.active
  obtain ⟨own, under⟩ := List.forall_mem_cons.mp h.frames
  have done := turn config current beneath extra m mv
  generalize World.move config _ mv = w' at done ⊢
  cases done with
  | idle => exact h.frames
  | again b options groupId p _ _ pushed =>
    subst pushed
    have waits : (current.pause b m.ids).caller.flow.NamesApart :=
      own.of_declarations (congrArg declarations (current.pause_vars b m.ids))
    exact List.forall_mem_cons.mpr ⟨own, List.forall_mem_cons.mpr ⟨waits, under⟩⟩
  | other b options flowId linked groupId p _ _ found _ pushed =>
    subst pushed
    have waits : (current.pause b m.ids).caller.flow.NamesApart :=
      own.of_declarations (congrArg declarations (current.pause_vars b m.ids))
    have linkedApart : linked.NamesApart := h.stored _ _ _ found
    have filled := linkedApart.of_declarations (g := linked.withVariables _)
      (declarations_fill linked.vars (current :: beneath))
    exact List.forall_mem_cons.mpr ⟨filled, List.forall_mem_cons.mpr ⟨waits, under⟩⟩
  | returned edgeId u unwound =>
    subst unwound
    refine unwind_frames (P := fun fs => ∀ f ∈ fs, f.flow.NamesApart) ?_ beneath current edgeId
      h.frames
    intro top parent beneath all
    obtain ⟨finished, all⟩ := List.forall_mem_cons.mp all
    obtain ⟨waiting, all⟩ := List.forall_mem_cons.mp all
    exact List.forall_mem_cons.mpr ⟨waiting.resumed finished, all⟩
  | stuck => exact h.frames
  | answered a => exact List.forall_mem_cons.mpr ⟨own, under⟩
  | edited vars =>
    exact List.forall_mem_cons.mpr ⟨own.of_declarations (permits current rfl), under⟩
  | restocked => exact h.frames

theorem Named.move (h : w.Named) (permits : w.Permits mv) : (w.move config mv).Named := by
  have frames := h.move_frames config permits
  obtain ⟨⟨stack, extra⟩, m⟩ := w
  obtain ⟨current, beneath, rfl⟩ := List.exists_cons_of_ne_nil h.active
  have done := turn config current beneath extra m mv
  refine ⟨done.active, fun preview flowId f found => ?_, frames⟩
  cases mv with
  | restock drafts published => exact permits preview flowId f found
  | _ => exact h.stored preview flowId f (done.found (fun _ _ => nofun) preview flowId ▸ found)

/-- A frame keeps what it declares over a move. -/
theorem redeclares_move (active : w.session.frames ≠ []) (permits : w.Permits mv) :
    Redeclares w.session.frames (w.move config mv).session.frames := by
  obtain ⟨⟨frames, extra⟩, m⟩ := w
  obtain ⟨current, beneath, rfl⟩ := List.exists_cons_of_ne_nil active
  have same {vars : List Variable} (h : declarations vars = current.declared) :
      current.declared <+: declarations vars := h ▸ List.prefix_refl _
  have done := turn config current beneath extra m mv
  generalize World.move config _ mv = w' at done ⊢
  cases done with
  | idle => exact .refl _
  | again b options groupId p _ _ pushed =>
    subst pushed
    exact .push (same (congrArg declarations (current.pause_vars b m.ids)))
  | other b options flowId linked groupId p _ _ _ _ pushed =>
    subst pushed
    exact .push (same (congrArg declarations (current.pause_vars b m.ids)))
  | returned edgeId u unwound =>
    subst unwound
    exact unwind_frames (P := Redeclares (current :: beneath))
      (fun top parent beneath h => h.pop (parent.declared_resumed top)) beneath current edgeId
      (.refl _)
  | stuck => exact .refl _
  | answered a => exact .head (same rfl)
  | edited vars => exact .head (same (permits current rfl))
  | restocked => exact .refl _

/-! ### Runs -/

theorem permitted_append : ∀ {w : World} {before after : List Move},
    w.Permitted config (before ++ after) →
      w.Permitted config before ∧ (w.play config before).Permitted config after
  | _, [], _, h => ⟨trivial, h⟩
  | _, _ :: _, _, ⟨permits, h⟩ => ⟨⟨permits, (permitted_append h).1⟩, (permitted_append h).2⟩

theorem Named.play (moves : List Move) (h : w.Named) (permitted : w.Permitted config moves) :
    (w.play config moves).Named := by
  induction moves generalizing w with
  | nil => exact h
  | cons mv moves ih => exact ih (h.move permitted.1) permitted.2

/-- A frame keeps what it declares while it is on the stack. -/
theorem Named.redeclares_play (moves : List Move) {level : ℕ} (h : w.Named)
    (permitted : w.Permitted config moves)
    (deep : ∀ done, done <+: moves → level < (w.play config done).session.depth) :
    ∃ f g, frameAt? w.session.frames level = some f ∧
      frameAt? (w.play config moves).session.frames level = some g ∧
      f.declared <+: g.declared := by
  obtain ⟨f, here⟩ := exists_frameAt? (deep [] List.nil_prefix)
  induction moves generalizing w f with
  | nil => exact ⟨f, f, here, here, List.prefix_refl _⟩
  | cons mv moves ih =>
    obtain ⟨permits, permitted⟩ := permitted
    have later : ∀ done, done <+: moves →
        level < ((w.move config mv).play config done).session.depth :=
      fun done h => deep (mv :: done) (List.cons_prefix_cons.mpr ⟨rfl, h⟩)
    obtain ⟨g, next⟩ := exists_frameAt? (later [] List.nil_prefix)
    obtain ⟨g', last, there, there', kept⟩ := ih (h.move permits) permitted later g next
    obtain rfl := Option.some.inj (next.symm.trans there)
    exact ⟨f, last, here, there', (redeclares_move h.active permits level f g here next).trans kept⟩

end World

/-- Names of variables stay apart. If no name is declared twice in the root nor in any stored
definition, then in no frame of any state that is reached by blocks, returns, appended answers and
other values for the variables of the active frame; whatever requests fail on the way. A frame keeps
what it declares while it is on the stack, in front of what it takes over, as a frame does that
another one merges into. -/
theorem names_apart (config : Config) {flow : Flow} (resultId : Option String) {m : Memory}
    (root : flow.NamesApart) (stored : m.Stores fun _ => Flow.NamesApart) {moves : List Move}
    (permitted : (World.start flow resultId m).Permitted config moves) :
    (∀ f ∈ ((World.start flow resultId m).play config moves).session.frames,
        f.flow.NamesApart) ∧
      (∀ before after, moves = before ++ after → ∀ level,
        (∀ done, done <+: after →
          level < ((World.start flow resultId m).play config (before ++ done)).session.depth) →
        ∃ f g, frameAt? ((World.start flow resultId m).play config before).session.frames level =
            some f ∧
          frameAt? ((World.start flow resultId m).play config moves).session.frames level =
            some g ∧ f.declared <+: g.declared) ∧
      ∀ parent finished : Frame, parent.declared <+: (parent.absorb finished).declared := by
  have named := World.Named.start resultId root stored
  refine ⟨(named.play moves permitted).frames, ?_, fun parent finished => ?_⟩
  · rintro before after rfl level deep
    obtain ⟨first, rest⟩ := World.permitted_append permitted
    simp only [World.play_append] at deep ⊢
    exact (named.play before first).redeclares_play after rest deep
  · rw [Frame.declared_absorb]
    exact List.prefix_append ..

namespace Sample

/-- A flow with two variables. -/
def enrolment : Flow := { flow with vars := [⟨"v1", "name", none⟩, ⟨"v2", "age", some (.int 36)⟩] }

/-- The survey is joined, its variables are given values, and it is left and joined again. -/
def surveying : List Move :=
  [.execute join, .setVars [⟨"q1", "plan", some (.string "free")⟩,
    ⟨"q2", "name", some (.string "Ada")⟩, ⟨"q3", "city", some .null⟩], .next none, .execute join]

theorem surveyed_apart : surveyed.Stores fun _ => Flow.NamesApart := by
  intro preview flowId f found
  cases preview with
  | true => cases found
  | false =>
    by_cases survey : "survey" = flowId
    · subst survey
      cases found
      change ["plan", "name", "city"].Nodup
      decide
    · have stored : surveyed.definition? false flowId = Table.lookup flowId [("survey", _)] := rfl
      rw [Table.lookup, if_neg survey, Table.lookup] at stored
      simp [Memory.found, stored] at found

theorem surveying_permitted :
    (World.start enrolment (some "r") surveyed).Permitted .default surveying := by
  refine ⟨trivial, ?_, trivial, trivial, trivial⟩
  rintro current ⟨⟩
  rfl

end Sample

/-- The enrolment takes over what the survey declares beyond it, if it has a value. -/
theorem names_apart_sample :
    ∃ w f, (World.start Sample.enrolment (some "r") Sample.surveyed).play .default
        Sample.surveying = w ∧
      w.session.depth = 2 ∧ (∀ f ∈ w.session.frames, f.flow.NamesApart) ∧
      frameAt? w.session.frames 0 = some f ∧ [("v1", "name"), ("v2", "age")] <+: f.declared ∧
      f.declared = [("v1", "name"), ("v2", "age"), ("q1", "plan")] := by
  have deep : ∀ done, done <+: Sample.surveying → 0 < ((World.start Sample.enrolment (some "r")
      Sample.surveyed).play .default done).session.depth := by
    simp only [Sample.surveying, List.prefix_cons_iff, List.prefix_nil]
    rintro done (rfl | ⟨_, rfl, rfl | ⟨_, rfl, rfl | ⟨_, rfl, rfl | ⟨_, rfl, rfl⟩⟩⟩⟩)
    all_goals decide
  have root : Sample.enrolment.NamesApart := by
    change ["name", "age"].Nodup
    decide
  obtain ⟨apart, kept, -⟩ := names_apart .default (some "r") root Sample.surveyed_apart
    Sample.surveying_permitted
  obtain ⟨f, g, start, last, declared⟩ := kept [] Sample.surveying rfl 0 deep
  cases start
  cases last
  exact ⟨_, _, rfl, rfl, apart, rfl, declared, rfl⟩

end Dialogue
