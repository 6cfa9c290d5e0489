import Dialogue.Proofs.Deciding

/-!
# What names mean across a link

A name means the value of the nearest variable that bears it (`meaning`). A frame is transparent
over those beneath it if its variables say what their names mean there (`Frame.Transparent`). To
push a transparent frame changes the meaning of no name, and to pop it changes none either, whether
or not it merges: what it hands over was the meaning beneath. Links push transparent frames
(`link_keeps_scope`).
-/

namespace Dialogue

/-- The meaning of a name: the value of the first variable that bears it, in the nearest frame that
has such a variable. One without a value hides those beneath it. -/
def meaning (name : String) : List Frame → Option Json
  | [] => none
  | f :: beneath =>
    match f.flow.vars.find? fun v => v.name == name with
    | some v => v.value
    | none => meaning name beneath

section

variable {name : String} {f g top parent : Frame} {beneath : List Frame}

theorem meaning_of_declared {v : Variable} (h : f.flow.varNamed? name = some v) :
    meaning name (f :: beneath) = v.value := by
  rw [Flow.varNamed?] at h
  rw [meaning, h]

theorem meaning_of_undeclared (h : f.flow.varNamed? name = none) :
    meaning name (f :: beneath) = meaning name beneath := by
  rw [Flow.varNamed?] at h
  rw [meaning, h]

/-- What a name means is the value of what is looked up for it. -/
theorem nearest?_value (name : String) : ∀ frames : List Frame,
    (nearest? name frames).bind (·.value) = meaning name frames
  | [] => rfl
  | f :: beneath => by
    have rest := nearest?_value name beneath
    unfold nearest? at rest ⊢
    rw [List.findSome?_cons]
    cases found : f.flow.varNamed? name with
    | some v => rw [meaning_of_declared found, Option.bind_some]
    | none => rw [meaning_of_undeclared found, rest]

/-- A name means the same beneath other frames with the same variables. -/
theorem meaning_head (same : g.flow.vars = f.flow.vars) (name : String) (beneath : List Frame) :
    meaning name (g :: beneath) = meaning name (f :: beneath) := by
  rw [meaning, meaning, same]

/-- A variable that is declared bears its name. -/
theorem varNamed?_eq_some {flow : Flow} {v : Variable} (h : flow.varNamed? name = some v) :
    v ∈ flow.vars ∧ v.name = name :=
  ⟨List.mem_of_find?_eq_some h, by simpa using List.find?_some h⟩

/-- The variables of a frame say what their names mean in the frames beneath it. Where several bear
one name, the first does, and so do all that the frame beneath does not declare. -/
structure Frame.Transparent (top parent : Frame) (beneath : List Frame) : Prop where
  first : ∀ name v, top.flow.varNamed? name = some v → v.value = meaning name (parent :: beneath)
  further : ∀ v ∈ top.flow.vars, parent.flow.varNamed? v.name = none →
    v.value = meaning v.name beneath

namespace Frame.Transparent

/-- A frame with the variables of the frame beneath is transparent. -/
theorem of_same (same : top.flow.vars = parent.flow.vars) : top.Transparent parent beneath := by
  refine ⟨fun name v h => ?_, fun v hv undeclared => ?_⟩
  · rw [← meaning_head same, meaning_of_declared h]
  · have absent := List.find?_eq_none.mp undeclared v (same ▸ hv)
    simp at absent

/-- A frame whose variables are filled from the frames beneath is transparent. -/
theorem of_filled (filled : ∀ v ∈ top.flow.vars, v.value = meaning v.name (parent :: beneath)) :
    top.Transparent parent beneath := by
  refine ⟨fun name v h => ?_, fun v hv undeclared => ?_⟩
  · obtain ⟨hv, rfl⟩ := varNamed?_eq_some h
    exact filled v hv
  · rw [filled v hv, meaning_of_undeclared undeclared]

/-- Other frames with the same variables are transparent as well. -/
theorem congr (h : top.Transparent parent beneath) (above : f.flow.vars = top.flow.vars)
    (below : g.flow.vars = parent.flow.vars) : f.Transparent g beneath := by
  refine ⟨fun name v found => ?_, fun v hv undeclared => ?_⟩
  · rw [meaning_head below]
    exact h.first name v (by simpa [Flow.varNamed?, above] using found)
  · exact h.further v (above ▸ hv) (by simpa [Flow.varNamed?, below] using undeclared)

theorem push (h : top.Transparent parent beneath) (name : String) :
    meaning name (top :: parent :: beneath) = meaning name (parent :: beneath) := by
  cases found : top.flow.varNamed? name with
  | some v => rw [meaning_of_declared found, h.first name v found]
  | none => exact meaning_of_undeclared found

end Frame.Transparent

@[simp] theorem Variable.updated_name (finished : Flow) (v : Variable) :
    (v.updated finished).name = v.name := by
  unfold updated
  split
  · split <;> rfl
  · rfl

/-- What a name stands for in a frame that has absorbed another: a variable of its own, updated, or
else the first that is handed over. -/
theorem Frame.absorb_varNamed? (parent top : Frame) (name : String) :
    (parent.absorb top).flow.varNamed? name =
      ((parent.flow.varNamed? name).map (Variable.updated top.flow)).or
        ((parent.flow.undeclared top.flow.vars).find? (·.name == name)) := by
  have named : ((·.name == name) ∘ Variable.updated top.flow) = (·.name == name) := by
    funext v
    simp
  simp only [absorb, Flow.varNamed?, Flow.withVariables, List.find?_append, List.find?_map, named]

namespace Frame.Transparent

/-- A merging frame hands over nothing that changes the meaning of a name. -/
theorem absorb (h : top.Transparent parent beneath) (name : String) :
    meaning name (parent.absorb top :: beneath) = meaning name (parent :: beneath) := by
  have stands := parent.absorb_varNamed? top name
  cases declared : parent.flow.varNamed? name with
  | some v =>
    -- the frame beneath keeps its variable; a value for it is the one that it had
    have own : (v.updated top.flow).value = v.value := by
      obtain ⟨-, rfl⟩ := varNamed?_eq_some declared
      unfold Variable.updated
      cases found : top.flow.varNamed? v.name with
      | none => rfl
      | some w =>
        have value : w.value = v.value := by
          rw [h.first v.name w found, meaning_of_declared declared]
        dsimp only
        split_ifs
        · exact value
        · rfl
    rw [declared] at stands
    rw [meaning_of_declared stands, meaning_of_declared declared, own]
  | none =>
    rw [meaning_of_undeclared declared]
    rw [declared, Option.map_none, Option.none_or] at stands
    cases handed : (parent.flow.undeclared top.flow.vars).find? (·.name == name) with
    | none =>
      rw [handed] at stands
      exact meaning_of_undeclared stands
    | some w =>
      rw [handed] at stands
      have mem : w ∈ top.flow.vars := (List.mem_filter.mp (List.mem_of_find?_eq_some handed)).1
      obtain rfl : w.name = name := by simpa using List.find?_some handed
      rw [meaning_of_declared stands, h.further w mem declared]

theorem pop (h : top.Transparent parent beneath) (name : String) :
    meaning name (parent.resumed top :: beneath) = meaning name (parent :: beneath) := by
  unfold Frame.resumed
  split
  · exact h.absorb name
  · rfl

end Frame.Transparent

/-! ### Frames that a link pushes -/

@[simp] theorem Frame.pause_vars (f : Frame) (b : Block) (ids : IdSource) :
    (f.pause b ids).caller.flow.vars = f.flow.vars := by
  rcases f.pause_caller b ids with h | ⟨e, h⟩ <;> simp [h, withEdge, Flow.withEdge]

theorem fill_value {declared : List Variable} {frames : List Frame} {v : Variable}
    (h : v ∈ fill declared frames) : v.value = meaning v.name frames := by
  obtain ⟨w, -, rfl⟩ := List.mem_map.mp h
  exact nearest?_value w.name frames

theorem Frame.pushAgain_transparent (current : Frame) (beneath : List Frame) (b : Block)
    (groupId : String) (ids : IdSource) :
    (current.pushAgain b groupId ids).top.Transparent (current.pushAgain b groupId ids).caller
      beneath :=
  .of_same (current.pause_vars b ids).symm

theorem Frame.pushOther_transparent (current : Frame) (beneath : List Frame) (b : Block)
    (merges : Bool) (linked : Flow) (groupId : String) (ids : IdSource) :
    (current.pushOther beneath b merges linked groupId ids).top.Transparent
      (current.pushOther beneath b merges linked groupId ids).caller beneath := by
  refine .of_filled fun v hv => ?_
  rw [pushOther_caller, meaning_head (current.pause_vars b ids)]
  exact fill_value hv

/-! ### Popping a single frame -/

/-- A return that lowers the depth by one pops the active frame and no other. -/
theorem unwind_of_one {edgeId : Option String}
    (one : (unwind top (parent :: beneath) edgeId).frames.length = beneath.length + 1) :
    (unwind top (parent :: beneath) edgeId).frames = parent.resumed top :: beneath := by
  cases found : edgeId.bind top.flow.edge? with
  | some edge =>
    rw [unwind_of_edge found] at one
    simp at one
  | none =>
    rw [unwind_of_no_edge found] at one ⊢
    exact unwind_of_full one

/-- What a return from the active frame alone leaves. -/
theorem next_of_one {m m' : Memory} {extra : Entries} {edgeId : Option String} {n : Next}
    (ran : exec (Memory.host.next ⟨top :: parent :: beneath, extra⟩ edgeId) m = (.ok n, m'))
    (one : n.session.depth = beneath.length + 1) :
    n.session.frames = parent.resumed top :: beneath := by
  obtain ⟨-, rfl⟩ := next_ok ran
  exact unwind_of_one one

end

/-- Links do not show in what names mean. Whatever link pushes a frame, every name means behind it
what it meant before; and so it does once the pushed frame is finished, with the variables that it
started with, and it alone is popped. -/
theorem link_keeps_scope (config : Config) (s s' : Session) (b : Block) (m m' : Memory)
    {reply : Reply} (linked : exec (Memory.host.link config s b) m = (.ok reply, m'))
    (pushed : reply.session = some s') :
    (∀ name, meaning name s'.frames = meaning name s.frames) ∧
    ∃ top caller beneath, s' = ⟨top :: caller :: beneath, s.extra⟩ ∧
      ∀ finished : Frame, finished.flow.vars = top.flow.vars → ∀ edgeId n w w',
        exec (Memory.host.next ⟨finished :: caller :: beneath, s.extra⟩ edgeId) w = (.ok n, w') →
        n.session.depth = s.depth →
        ∀ name, meaning name n.session.frames = meaning name s.frames := by
  obtain ⟨frames, extra⟩ := s
  cases frames with
  | nil => cases linked
  | cons current beneath =>
    suffices transparent : ∃ top caller, s' = ⟨top :: caller :: beneath, extra⟩ ∧
        top.Transparent caller beneath ∧ caller.flow.vars = current.flow.vars by
      obtain ⟨top, caller, rfl, transparent, waits⟩ := transparent
      have before (name : String) :
          meaning name (caller :: beneath) = meaning name (current :: beneath) :=
        meaning_head waits name beneath
      refine ⟨fun name => (transparent.push name).trans (before name), top, caller, beneath, rfl,
        fun finished vars edgeId n w w' ran one name => ?_⟩
      rw [next_of_one ran one]
      exact ((transparent.congr vars rfl).pop name).trans (before name)
    have outcome := link_outcome config extra current beneath b m
    rw [linked] at outcome
    cases outcome with
    | refused r calls quiet => simp [Block.refuse] at pushed
    | again options groupId wanted held =>
      obtain rfl := Option.some.inj pushed
      exact ⟨_, _, rfl, current.pushAgain_transparent beneath b groupId m.ids,
        current.pause_vars b m.ids⟩
    | other options flowId flow groupId p wanted named found held pushes =>
      subst pushes
      obtain rfl := Option.some.inj pushed
      exact ⟨_, _, rfl, current.pushOther_transparent beneath b _ flow groupId m.ids,
        current.pause_vars b m.ids⟩

namespace Sample

/-- A frame with variables, of which two bear one name and one has no value. -/
def signup : Frame :=
  .root { flow with vars := [⟨"v1", "name", some (.string "Ada")⟩, ⟨"v2", "age", none⟩,
    ⟨"v3", "name", some (.string "Bob")⟩] } (some "r")

/-- A frame that gives values to further names. -/
def account : Frame :=
  .root { flow with vars := [⟨"v4", "age", some (.int 36)⟩, ⟨"v5", "plan", some (.string "free")⟩] }
    (some "r")

/-- Stores with a survey that declares some of their names. -/
def surveyed : Memory :=
  (Memory.empty ids).publish "survey" { questions with
    vars := .array [.object [("id", .string "q1"), ("name", .string "plan")],
      .object [("id", .string "q2"), ("name", .string "name")],
      .object [("id", .string "q3"), ("name", .string "city")]] }

end Sample

/-- The survey joins the signup and is finished at once. -/
theorem link_keeps_scope_sample :
    ∃ reply s' m' n w', exec (Memory.host.link .default ⟨[Sample.signup, Sample.account], []⟩
        Sample.join) Sample.surveyed = (.ok reply, m') ∧ reply.session = some s' ∧
      exec (Memory.host.next s' none) m' = (.ok n, w') ∧ n.session.depth = 2 ∧
      ∀ name, meaning name s'.frames = meaning name [Sample.signup, Sample.account] ∧
        meaning name n.session.frames = meaning name [Sample.signup, Sample.account] := by
  obtain ⟨reply, s', m', linked, pushed, n, w', ran, one⟩ :
      ∃ reply s' m', exec (Memory.host.link .default ⟨[Sample.signup, Sample.account], []⟩
          Sample.join) Sample.surveyed = (.ok reply, m') ∧ reply.session = some s' ∧
        ∃ n w', exec (Memory.host.next s' none) m' = (.ok n, w') ∧ n.session.depth = 2 :=
    ⟨_, _, _, rfl, rfl, _, _, rfl, rfl⟩
  obtain ⟨keeps, top, caller, beneath, rfl, back⟩ := link_keeps_scope .default
    ⟨[Sample.signup, Sample.account], []⟩ s' Sample.join Sample.surveyed m' linked pushed
  exact ⟨reply, _, m', n, w', linked, pushed, ran, one,
    fun name => ⟨keeps name, back top rfl none n m' w' ran one name⟩⟩

end Dialogue
