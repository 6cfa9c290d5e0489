import Dialogue.Proofs.Linking
import Dialogue.Proofs.Unwind

/-!
# The engine upon any surroundings

What a link or a return does can be told without saying what answers its requests. Two states of the
surroundings are related by some `R`, and the requests that are allowed are answered alike in
related states and lead to related states (`Host.Respects`). A computation that makes no other
requests then comes to the same result from related states (`Runs`). One run that keeps a property
of its surroundings is the case where a state is related to itself (`Only`).

A link makes requests that suit the active frame alone, and pushes one frame upon it
(`runs_execute`, `Pushed`); a return makes requests that suit the frames which it pops
(`runs_next`).
-/

namespace Dialogue

variable {σ α β : Type}

/-! ### Computations in related surroundings -/

/-- From related surroundings a computation comes to the same result, in related surroundings; and a
result that is no fault has a property. -/
def Runs (R : σ → σ → Prop) (x : Engine σ α) (P : α → Prop) : Prop :=
  ∀ w v, R w v → (exec x w).1 = (exec x v).1 ∧ R (exec x w).2 (exec x v).2 ∧
    ∀ a, (exec x w).1 = .ok a → P a

/-- Surroundings are related to themselves only, and if they have a property. -/
def Only (I : σ → Prop) (w v : σ) : Prop := w = v ∧ I w

namespace Runs

variable {R : σ → σ → Prop} {x : Engine σ α} {P Q : α → Prop}

theorem pure {a : α} (h : P a) : Runs R (Pure.pure a) P := by
  intro w v related
  refine ⟨rfl, related, fun a' done => ?_⟩
  obtain rfl := Except.ok.inj done
  exact h

theorem fault (f : Fault) : Runs R (throw f : Engine σ α) P := by
  intro w v related
  refine ⟨rfl, related, fun a done => ?_⟩
  cases done

theorem settle {r : Except Fault α} (h : ∀ a, r = .ok a → P a) : Runs R (Dialogue.settle r) P :=
  fun _ _ related => ⟨rfl, related, h⟩

theorem mono (h : Runs R x P) (weaker : ∀ a, P a → Q a) : Runs R x Q := by
  intro w v related
  obtain ⟨same, later, has⟩ := h w v related
  exact ⟨same, later, fun a done => weaker a (has a done)⟩

theorem bind {f : α → Engine σ β} {Q : β → Prop} (h : Runs R x P)
    (next : ∀ a, P a → Runs R (f a) Q) : Runs R (x >>= f) Q := by
  intro w v related
  obtain ⟨same, later, has⟩ := h w v related
  rw [exec_bind, exec_bind]
  generalize exec x w = left at same later has ⊢
  generalize exec x v = right at same later ⊢
  obtain ⟨result, w'⟩ := left
  obtain ⟨_, v'⟩ := right
  obtain rfl := same
  cases result with
  | error f => exact ⟨rfl, later, fun b done => by cases done⟩
  | ok a => exact next a (has a rfl) w' v' later

theorem map {f : α → β} {Q : β → Prop} (h : Runs R x P) (result : ∀ a, P a → Q (f a)) :
    Runs R (f <$> x) Q := by
  rw [← bind_pure_comp]
  exact h.bind fun a ha => pure (result a ha)

end Runs

/-! ### Hosts -/

/-- A step of the surroundings answers alike in related ones and leads to related ones. -/
def Alike (R : σ → σ → Prop) (r : StateM σ α) (P : α → Prop) : Prop :=
  ∀ w v, R w v → (r w).1 = (r v).1 ∧ R (r w).2 (r v).2 ∧ P (r w).1

/-- The requests that are allowed are answered alike in related surroundings, and the ids that are
drawn there are the same and new. -/
structure Host.Respects (host : Host σ) (allowed : Call → Prop) (new : String → Prop)
    (R : σ → σ → Prop) : Prop where
  draft : ∀ id, allowed (.getDraft id) → Alike R (host.draft id).run fun _ => True
  published : ∀ id, allowed (.getPublished id) → Alike R (host.published id).run fun _ => True
  ensure : ∀ w, allowed (.ensureResult w.id) → Alike R (host.ensure w).run fun _ => True
  upsert : ∀ w, allowed (.upsertResult w.id) → Alike R (host.upsert w).run fun _ => True
  freshId : Alike R host.freshId new

/-- All requests are allowed where surroundings are related to themselves only. -/
theorem Host.respects_all (host : Host σ) :
    host.Respects (fun _ => True) (fun _ => True) (Only fun _ => True) := by
  have alike {α : Type} (r : StateM σ α) : Alike (Only fun _ => True) r fun _ => True := by
    rintro w _ ⟨rfl, -⟩
    exact ⟨rfl, ⟨rfl, trivial⟩, trivial⟩
  exact ⟨fun _ _ => alike _, fun _ _ => alike _, fun _ _ => alike _, fun _ _ => alike _, alike _⟩

theorem Runs.ask {R : σ → σ → Prop} {r : Request σ α} (h : Alike R r.run fun _ => True) :
    Runs R (ask r) fun _ => True := by
  intro w v related
  obtain ⟨same, later, -⟩ := h w v related
  rw [exec_ask, exec_ask]
  generalize r.run w = left at same later ⊢
  generalize r.run v = right at same later ⊢
  obtain ⟨result, w'⟩ := left
  obtain ⟨_, v'⟩ := right
  obtain rfl := same
  cases result <;> exact ⟨rfl, later, fun _ _ => trivial⟩

/-- The requests that suit a frame: the definitions that its mode reads, and writes about its own
result. -/
def Frame.mayCall (f : Frame) : Call → Prop
  | .getDraft _ => f.resultId = none
  | .getPublished _ => f.resultId ≠ none
  | .ensureResult r => f.resultId = some r
  | .upsertResult r => f.resultId = some r

/-! ### What a link pushes -/

/-- A caller that waits: it may have an edge more. -/
def Frame.Waits (f g : Frame) : Prop := g = f ∨ ∃ id t, g = f.withEdge ⟨id, .unset, t⟩

/-- The frames behind a link that pushes one. It is for the active flow, or for a flow that some
definition stands for; then it carries the result of its caller, or a new one if its caller has any.
-/
inductive Pushed (new : String → Prop) (current : Frame) (beneath : List Frame) :
    List Frame → Prop
  | again (caller : Frame) (back : Option String) (id groupId : String)
    (waits : current.Waits caller) :
    Pushed new current beneath
      (Frame.withEdge ⟨current.flow, current.resultId, back, current.answers, true⟩
          ⟨id, .unset, ⟨groupId, none⟩⟩ :: caller :: beneath)
  | other (caller : Frame) (back : Option String) (id groupId : String)
    (waits : current.Waits caller) (d : Definition) (name : Option String) (linked : Flow)
    (decoded : d.toFlow name = .ok linked) (result : Option String)
    (carries : result = current.resultId ∨
      current.resultId ≠ none ∧ ∃ r, result = some r ∧ new r) (merges : Bool) :
    Pushed new current beneath
      (Frame.withEdge ⟨linked.withVariables (fill linked.vars (current :: beneath)), result, back,
          if merges then current.answers else [], merges⟩
          ⟨id, .unset, ⟨groupId, none⟩⟩ :: caller :: beneath)

theorem Frame.Waits.resultId {f g : Frame} (h : f.Waits g) : g.resultId = f.resultId := by
  rcases h with rfl | ⟨id, t, rfl⟩ <;> rfl

/-- Every frame behind a link carries a result that was carried before, or a new one in a live
session. -/
theorem Pushed.result {new : String → Prop} {current : Frame} {beneath frames : List Frame}
    (h : Pushed new current beneath frames) {f : Frame} (hf : f ∈ frames) :
    (∃ k ∈ current :: beneath, f.resultId = k.resultId) ∨
      current.resultId ≠ none ∧ ∃ r, f.resultId = some r ∧ new r := by
  have under {caller : Frame} (waits : current.Waits caller) (hf : f ∈ caller :: beneath) :
      ∃ k ∈ current :: beneath, f.resultId = k.resultId := by
    rcases List.mem_cons.mp hf with rfl | hf
    · exact ⟨current, List.mem_cons_self, waits.resultId⟩
    · exact ⟨f, List.mem_cons_of_mem _ hf, rfl⟩
  cases h with
  | again caller back id groupId waits =>
    rcases List.mem_cons.mp hf with rfl | hf
    · exact .inl ⟨current, List.mem_cons_self, rfl⟩
    · exact .inl (under waits hf)
  | other caller back id groupId waits d name linked decoded result carries merges =>
    rcases List.mem_cons.mp hf with rfl | hf
    · rcases carries with same | new
      · exact .inl ⟨current, List.mem_cons_self, same⟩
      · exact .inr new
    · exact .inl (under waits hf)

/-! ### The parts of a link and of a return -/

section

variable {host : Host σ} {allowed : Call → Prop} {new : String → Prop} {R : σ → σ → Prop}
  {current top : Frame} {beneath : List Frame} {extra : Entries}

theorem Runs.draw (h : host.Respects allowed new R) : Runs R host.draw new := by
  intro w v related
  obtain ⟨same, later, isNew⟩ := h.freshId w v related
  refine ⟨congrArg Except.ok same, later, fun a done => ?_⟩
  obtain rfl := Except.ok.inj done
  exact isNew

theorem runs_edgeTo (h : host.Respects allowed new R) (t : Target) :
    Runs R (host.edgeTo t) fun e => ∃ id, e = ⟨id, .unset, t⟩ :=
  (Runs.draw h).bind fun id _ => .pure ⟨id, rfl⟩

theorem runs_pause (h : host.Respects allowed new R) (caller : Frame) (b : Block) :
    Runs R (host.pause caller b) fun p => caller.Waits p.1 := by
  unfold Host.pause Host.resumeEdge
  cases caller.flow.resumeTarget? b with
  | none => exact .pure (.inl rfl)
  | some t =>
    refine ((runs_edgeTo h t).map (Q := fun r => ∃ id, r = some ⟨id, .unset, t⟩) ?_).bind ?_
    · rintro _ ⟨id, rfl⟩
      exact ⟨id, rfl⟩
    · rintro _ ⟨id, rfl⟩
      exact .pure (.inr ⟨id, t, rfl⟩)

theorem runs_enter (h : host.Respects allowed new R) (frames : List Frame) (groupId : String) :
    Runs R (host.enter ⟨top :: frames, extra⟩ groupId) fun reply =>
      ∃ id, reply.session =
        some ⟨top.withEdge ⟨id, .unset, ⟨groupId, none⟩⟩ :: frames, extra⟩ := by
  refine (runs_edgeTo h _).bind ?_
  rintro _ ⟨id, rfl⟩
  exact .pure ⟨id, rfl⟩

/-- What a look-up has found is decoded without any request. -/
theorem runs_decode (found : Option Definition) (name : Option String) :
    Runs R (match found with
      | some d => some <$> settle (d.toFlow name)
      | none => Pure.pure none) fun flow => ∀ f, flow = some f →
        ∃ (d : Definition) (name : Option String), d.toFlow name = .ok f := by
  cases found with
  | none => exact .pure fun f hf => by cases hf
  | some d =>
    refine (Runs.settle fun f hf => hf).map fun f hf g hg => ?_
    obtain rfl := Option.some.inj hg
    exact ⟨d, name, hf⟩

/-- The definition that a session of the frame's mode finds stands for the flow. -/
theorem runs_fetch (h : host.Respects allowed new R) (fits : ∀ c, current.mayCall c → allowed c)
    (flowId : String) :
    Runs R (host.fetch current.isPreview flowId) fun flow =>
      ∀ f, flow = some f → ∃ (d : Definition) (name : Option String), d.toFlow name = .ok f := by
  unfold Host.fetch
  cases result : current.resultId with
  | none =>
    simp only [Frame.isPreview, result, Option.isNone_none, if_true]
    exact (Runs.ask (h.draft flowId (fits _ result))).bind fun found _ => runs_decode found none
  | some r =>
    have live : current.resultId ≠ none := by simp [result]
    simp only [Frame.isPreview, result, Option.isNone_some, Bool.false_eq_true, if_false]
    exact (Runs.ask (h.published flowId (fits _ live))).bind fun found _ =>
      runs_decode found (some flowId)

theorem runs_ensureStarted (h : host.Respects allowed new R)
    (fits : ∀ c, current.mayCall c → allowed c) :
    Runs R (host.ensureStarted current) fun _ => True := by
  unfold Host.ensureStarted
  cases result : current.resultId with
  | none => exact .pure trivial
  | some r =>
    dsimp only
    split
    · exact .ask (h.ensure ⟨r, current.flow, false, false⟩ (fits _ result))
    · exact .pure trivial

theorem runs_resultIdFor (h : host.Respects allowed new R) (merges : Bool) :
    Runs R (host.resultIdFor current merges) fun result =>
      result = current.resultId ∨ current.resultId ≠ none ∧ ∃ r, result = some r ∧ new r := by
  unfold Host.resultIdFor
  cases current.resultId with
  | none => exact .pure (.inl rfl)
  | some r =>
    cases merges with
    | true => exact .pure (.inl rfl)
    | false => exact (Runs.draw h).map fun id isNew => .inr ⟨by simp, id, rfl, isNew⟩

theorem runs_course (h : host.Respects allowed new R) (fits : ∀ c, current.mayCall c → allowed c)
    (config : Config) (depth : Nat) (b : Block) :
    Runs R (host.course config current depth b) fun c =>
      ∀ options linked groupId, c = .other options linked groupId →
        ∃ (d : Definition) (name : Option String), d.toFlow name = .ok linked := by
  rw [Host.course_eq]
  cases current.wish config depth b with
  | refuse r => exact .pure fun _ _ _ hc => by cases hc
  | again groupId => exact .pure fun _ _ _ hc => by cases hc
  | visit options flowId =>
    refine (runs_fetch h fits flowId).map fun found decoded => ?_
    rintro options' linked groupId landed
    rcases options.land_spec flowId found with ⟨r, refused⟩ | ⟨_, _, rfl, -, other⟩
    · cases refused.symm.trans landed
    · cases other.symm.trans landed
      exact decoded linked rfl

theorem runs_take (h : host.Respects allowed new R) (fits : ∀ c, current.mayCall c → allowed c)
    (config : Config) (b : Block) {c : Course}
    (decoded : ∀ options linked groupId, c = .other options linked groupId →
      ∃ (d : Definition) (name : Option String), d.toFlow name = .ok linked) :
    Runs R (host.take config ⟨current :: beneath, extra⟩ current beneath b c) fun reply =>
      ∀ s, reply.session = some s → s.extra = extra ∧ Pushed new current beneath s.frames := by
  cases c with
  | refuse r => exact .pure fun s hs => by cases hs
  | again groupId =>
    unfold Host.take Host.pushSame
    simp only [bind_assoc, pure_bind]
    refine (runs_pause h current b).bind fun p waits => ?_
    refine (runs_enter h _ groupId).mono ?_
    rintro reply ⟨id, entered⟩ s hs
    obtain rfl := Option.some.inj (entered.symm.trans hs)
    exact ⟨rfl, .again p.1 p.2 id groupId waits⟩
  | other options linked groupId =>
    obtain ⟨d, name, decoded⟩ := decoded options linked groupId rfl
    unfold Host.take Host.pushOther
    simp only [bind_assoc, pure_bind]
    refine (runs_ensureStarted h fits).bind fun _ _ => (runs_pause h current b).bind fun p waits =>
      (runs_resultIdFor h _).bind fun result carries => ?_
    refine (runs_enter h _ groupId).mono ?_
    rintro reply ⟨id, entered⟩ s hs
    obtain rfl := Option.some.inj (entered.symm.trans hs)
    exact ⟨rfl, .other p.1 p.2 id groupId waits d name linked decoded result carries _⟩

end

/-! ### Steps of a session -/

section

variable {host : Host σ} {allowed : Call → Prop} {new : String → Prop} {R : σ → σ → Prop}
  {s : Session}

/-- The session behind a link that pushes a frame. -/
def Session.Pushed (new : String → Prop) (s s' : Session) : Prop :=
  s'.extra = s.extra ∧ ∃ current beneath, s.frames = current :: beneath ∧
    Dialogue.Pushed new current beneath s'.frames

theorem runs_link (h : host.Respects allowed new R)
    (fits : ∀ f ∈ s.frames, ∀ c, f.mayCall c → allowed c) (config : Config) (b : Block) :
    Runs R (host.link config s b) fun reply =>
      ∀ s', reply.session = some s' → s.Pushed new s' := by
  obtain ⟨frames, extra⟩ := s
  cases frames with
  | nil => exact .fault .noFrame
  | cons current beneath =>
    have suits := fits current List.mem_cons_self
    rw [Host.link_eq]
    refine (runs_course h suits config _ b).bind fun c decoded => ?_
    refine (runs_take h suits config b decoded).mono fun reply pushed s' hs => ?_
    obtain ⟨same, frames⟩ := pushed s' hs
    exact ⟨same, current, beneath, rfl, frames⟩

theorem runs_execute (h : host.Respects allowed new R)
    (fits : ∀ f ∈ s.frames, ∀ c, f.mayCall c → allowed c) (config : Config) (b : Block) :
    Runs R (Registry.default.execute host config s b) fun reply =>
      ∀ s', reply.session = some s' → s.Pushed new s' := by
  by_cases link : b.type = Executor.linkType
  · rw [execute_link config s link]
    exact runs_link h fits config b
  · rw [execute_other config s link]
    exact .pure fun s' hs => by cases hs

/-- The session behind an edge that is followed: frames may have been popped. -/
def Session.Returned (s s' : Session) (edgeId : Option String) : Prop :=
  s'.extra = s.extra ∧ ∃ top beneath, s.frames = top :: beneath ∧
    s'.frames = (unwind top beneath edgeId).frames

theorem runs_closeAll (h : host.Respects allowed new R) (finished : List Frame)
    (fits : ∀ f ∈ finished, ∀ c, f.mayCall c → allowed c) :
    Runs R (host.closeAll finished) fun _ => True := by
  unfold Host.closeAll
  induction finished with
  | nil => exact .pure trivial
  | cons f finished ih =>
    rw [List.forM_eq_forM, List.forM_cons]
    refine Runs.bind (P := fun _ => True) ?_ fun _ _ =>
      ih fun k hk => fits k (List.mem_cons_of_mem _ hk)
    unfold Host.close
    cases closing : f.closing? with
    | none => exact .pure trivial
    | some w =>
      obtain ⟨-, carries, -⟩ := Frame.closing?_eq_some closing
      exact .ask (h.upsert w (fits f List.mem_cons_self _ carries))

theorem runs_next (h : host.Respects allowed new R)
    (fits : ∀ f ∈ s.frames, ∀ c, f.mayCall c → allowed c) (edgeId : Option String) :
    Runs R (host.next s edgeId) fun n => s.Returned n.session edgeId := by
  obtain ⟨frames, extra⟩ := s
  cases frames with
  | nil => exact .fault .noFrame
  | cons top beneath =>
    unfold Host.next
    simp only [Host.follow_eq_unwind, bind_assoc, pure_bind]
    refine (runs_closeAll h _ fun f hf c call => ?_).bind fun _ _ =>
      .pure ⟨rfl, top, beneath, rfl, rfl⟩
    obtain ⟨k, hk, result, -⟩ := unwind_kept (List.mem_append_left _ hf)
    refine fits k hk c ?_
    cases c <;> simpa only [Frame.mayCall, result] using call

end

end Dialogue
