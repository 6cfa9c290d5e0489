import Dialogue.Proofs.Decoding
import Dialogue.Proofs.Tables

/-!
# Running the engine

`exec` runs a computation of the engine from a state of its surroundings, and the equations below
say what becomes of each way to build one. On stores in memory a request notes itself in the journal
and is then answered or made to fail.
-/

namespace Dialogue

variable {σ α β : Type}

/-- The outcome of a computation, and the state of the surroundings behind it. -/
def exec (x : Engine σ α) (w : σ) : Except Fault α × σ := x.run w

/-- Goes on with a result unless there was a fault. -/
def proceed (r : Except Fault α × σ) (f : α → σ → Except Fault β × σ) : Except Fault β × σ :=
  match r with
  | (.ok a, w) => f a w
  | (.error e, w) => (.error e, w)

@[simp] theorem proceed_ok (a : α) (w : σ) (f : α → σ → Except Fault β × σ) :
    proceed (.ok a, w) f = f a w := rfl

@[simp] theorem proceed_error (e : Fault) (w : σ) (f : α → σ → Except Fault β × σ) :
    proceed (.error e, w) f = (.error e, w) := rfl

@[simp] theorem exec_pure (a : α) (w : σ) : exec (pure a : Engine σ α) w = (.ok a, w) := rfl

@[simp] theorem exec_bind (x : Engine σ α) (f : α → Engine σ β) (w : σ) :
    exec (x >>= f) w = proceed (exec x w) fun a => exec (f a) := by
  unfold exec
  rw [ExceptT.run_bind]
  change StateT.bind x.run _ w = _
  rcases h : x.run w with ⟨_ | _, _⟩ <;> simp [StateT.bind, h] <;> rfl

@[simp] theorem exec_map (x : Engine σ α) (f : α → β) (w : σ) :
    exec (f <$> x) w = proceed (exec x w) fun a w' => (.ok (f a), w') := by
  rw [← bind_pure_comp, exec_bind]; rfl

@[simp] theorem exec_settle (r : Except Fault α) (w : σ) : exec (settle r) w = (r, w) := rfl

theorem exec_map_settle (r : Except Fault α) (f : α → β) (w : σ) :
    exec (f <$> settle r) w = (f <$> r, w) := by
  rw [exec_map, exec_settle]
  cases r <;> rfl

/-- A request that fails is a fault of the engine. -/
theorem exec_ask (r : Request σ α) (w : σ) :
    exec (ask r) w =
      match r.run w with
      | (.ok a, w') => (.ok a, w')
      | (.error e, w') => (.error (.store e), w') := rfl

/-! ### Stores in memory -/

namespace Memory

/-- The stores with some more requests noted. -/
def note (m : Memory) (calls : List Call) : Memory := { m with journal := m.journal ++ calls }

@[simp] theorem note_ids (m : Memory) (calls : List Call) : (m.note calls).ids = m.ids := rfl

@[simp] theorem note_journal (m : Memory) (calls : List Call) :
    (m.note calls).journal = m.journal ++ calls := rfl

@[simp] theorem note_nil (m : Memory) : m.note [] = m := by simp [note]

@[simp] theorem note_note (m : Memory) (a b : List Call) : (m.note a).note b = m.note (a ++ b) := by
  simp [note]

/-- A request in memory is noted first, and then fails or is answered. -/
theorem answer_run (call : Call) (body : Memory → α × Memory) (m : Memory) :
    (answer call body).run m =
      match m.outage m.journal call with
      | some fault => (.error fault, m.note [call])
      | none => (.ok (body (m.note [call])).1, (body (m.note [call])).2) := by
  change answer call body m = _
  unfold answer
  cases m.outage m.journal call <;> rfl

theorem exec_ask_answer (call : Call) (body : Memory → α × Memory) (m : Memory) :
    exec (ask (answer call body)) m =
      match m.outage m.journal call with
      | some fault => (.error (.store fault), m.note [call])
      | none => (.ok (body (m.note [call])).1, (body (m.note [call])).2) := by
  rw [exec_ask, answer_run]
  cases m.outage m.journal call <;> rfl

/-- The stores with another source of ids. -/
def withIds (m : Memory) (ids : IdSource) : Memory := { m with ids := ids }

@[simp] theorem withIds_ids (m : Memory) (ids : IdSource) : (m.withIds ids).ids = ids := rfl

@[simp] theorem withIds_withIds (m : Memory) (a b : IdSource) :
    (m.withIds a).withIds b = m.withIds b := rfl

@[simp] theorem withIds_self (m : Memory) : m.withIds m.ids = m := rfl

@[simp] theorem exec_draw_host (m : Memory) :
    exec host.draw m = (.ok m.ids.next.1, m.withIds m.ids.next.2) := rfl

/-- The definition that a session of some mode finds. -/
def definition? (m : Memory) (preview : Bool) (flowId : String) : Option Definition :=
  if preview then m.drafts.get? flowId else m.published.get? flowId

/-- The flow that a session of some mode finds, or what is wrong with its definition. -/
def found (m : Memory) (preview : Bool) (flowId : String) : Except Fault (Option Flow) :=
  match m.definition? preview flowId with
  | none => .ok none
  | some d => some <$> d.toFlow (if preview then none else some flowId)

/-- A live session finds a flow under the id that it asks for. -/
theorem found_id {m : Memory} {flowId : String} {f : Flow}
    (h : m.found false flowId = .ok (some f)) : f.id = flowId := by
  unfold found at h
  cases hd : m.definition? false flowId with
  | none => simp [hd] at h
  | some d =>
    cases hf : d.toFlow (some flowId) with
    | error e => simp [hd, hf] at h
    | ok g =>
      obtain rfl : g = f := by simpa [hd, hf] using h
      exact Definition.toFlow_id hf

/-- What is found depends on the stored definitions alone. -/
theorem found_congr {m m' : Memory} (drafts : m'.drafts = m.drafts)
    (published : m'.published = m.published) (preview : Bool) (flowId : String) :
    m'.found preview flowId = m.found preview flowId := by
  simp only [found, definition?, drafts, published]

/-- The request by which a session of some mode looks up a definition. -/
def reading (preview : Bool) (flowId : String) : Call :=
  if preview then .getDraft flowId else .getPublished flowId

/-- A look-up whose definition, if there is one, is decoded at once. -/
private theorem exec_look (call : Call) (look : Memory → Option Definition) (id : Option String)
    (m : Memory) (same : look (m.note [call]) = look m) :
    exec (do
      match ← ask (answer call fun m => (look m, m)) with
      | some d => some <$> settle (d.toFlow id)
      | none => return none) m =
      match m.outage m.journal call with
      | some fault => (.error (.store fault), m.note [call])
      | none =>
        (match look m with
          | none => .ok none
          | some d => some <$> d.toFlow id, m.note [call]) := by
  rw [exec_bind, exec_ask_answer]
  cases m.outage m.journal call with
  | some fault => rfl
  | none =>
    simp only [same, proceed_ok]
    cases look m with
    | none => rfl
    | some d => exact exec_map_settle _ _ _

/-- To fetch a flow is a single request. -/
theorem exec_fetch (preview : Bool) (flowId : String) (m : Memory) :
    exec (host.fetch preview flowId) m =
      match m.outage m.journal (reading preview flowId) with
      | some fault => (.error (.store fault), m.note [reading preview flowId])
      | none => (m.found preview flowId, m.note [reading preview flowId]) := by
  cases preview with
  | true => exact exec_look (.getDraft flowId) (·.drafts.get? flowId) none m rfl
  | false => exact exec_look (.getPublished flowId) (·.published.get? flowId) (some flowId) m rfl

end Memory

end Dialogue
