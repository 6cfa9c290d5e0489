import Mathlib.Data.List.Induction
import Dialogue.Proofs.Linking
import Dialogue.Proofs.Unwind
import Dialogue.Script

/-!
# Runs of a session

A `World` is a session with its stores in memory, and a run is a list of moves: a block is executed
by the default registry and its new state adopted, an edge is followed, the driver appends an answer
to the active frame or gives it other variables, or other definitions are stored. A move that ends
in a fault leaves the session as it was. Which requests fail is up to the outage of the stores,
which may look at all requests before.

`turn` says once what a move can do; every invariant of a run is shown from its cases
(`play_induct`). `perform1_move` ties the moves to the steps of a scripted session. An `Act` is a
move or an edit of the active frame's answers, which a driver may do as well.
-/

namespace Dialogue

/-- A session with its stores. -/
structure World where
  session : Session
  memory : Memory

/-- Something that happens to a session. -/
inductive Move where
  | execute (b : Block)
  | next (edgeId : Option String)
  /-- The driver appends an answer to the active frame. -/
  | answer (a : Answer)
  /-- The driver sets the variables of the active frame. -/
  | setVars (vars : List Variable)
  /-- Other definitions are stored. -/
  | restock (drafts published : Table Definition)

/-- The frame with other variables. -/
def Frame.withVars (f : Frame) (vars : List Variable) : Frame :=
  { f with flow := f.flow.withVariables vars }

/-- The session with another active frame. -/
def Session.onTop (s : Session) (change : Frame → Frame) : Session :=
  match s.frames with
  | [] => s
  | top :: beneath => { s with frames := change top :: beneath }

namespace World

/-- A session that starts with a flow, under a result id if it is live. -/
def start (flow : Flow) (resultId : Option String) (m : Memory) : World :=
  ⟨.start (.root flow resultId), m⟩

/-- Adopts the new session that a computation answers, if it answers one. -/
def adopt (w : World) (r : Except Fault (Option Session) × Memory) : World :=
  match r with
  | (.ok (some s), m) => ⟨s, m⟩
  | (.ok none, m) => ⟨w.session, m⟩
  | (.error _, m) => ⟨w.session, m⟩

/-- Performs a move. -/
def move (config : Config) (w : World) : Move → World
  | .execute b => w.adopt
    (exec (Reply.session <$> Registry.default.execute Memory.host config w.session b) w.memory)
  | .next edgeId => w.adopt
    (exec ((fun n => some n.session) <$> Memory.host.next w.session edgeId) w.memory)
  | .answer a => { w with session := w.session.onTop (·.addAnswer a) }
  | .setVars vars => { w with session := w.session.onTop (·.withVars vars) }
  | .restock drafts published =>
    { w with memory := { w.memory with drafts := drafts, published := published } }

/-- Performs some moves in order. -/
def play (config : Config) (w : World) (moves : List Move) : World := moves.foldl (move config) w

@[simp] theorem play_nil (config : Config) (w : World) : w.play config [] = w := rfl

@[simp] theorem play_cons (config : Config) (w : World) (mv : Move) (moves : List Move) :
    w.play config (mv :: moves) = (w.move config mv).play config moves := rfl

theorem play_append (config : Config) (w : World) (a b : List Move) :
    w.play config (a ++ b) = (w.play config a).play config b := List.foldl_append ..

theorem play_concat (config : Config) (w : World) (moves : List Move) (mv : Move) :
    w.play config (moves ++ [mv]) = (w.play config moves).move config mv := by
  rw [play_append, play_cons, play_nil]

/-- What a block answers is adopted. -/
theorem move_execute {config : Config} {s : Session} {m m' : Memory} {b : Block} {reply : Reply}
    (ran : exec (Registry.default.execute Memory.host config s b) m = (.ok reply, m')) :
    move config ⟨s, m⟩ (.execute b) = ⟨reply.session.getD s, m'⟩ := by
  simp only [move]
  rw [exec_map, ran, proceed_ok]
  cases reply.session <;> rfl

theorem move_next {config : Config} {s : Session} {m m' : Memory} {edgeId : Option String}
    {n : Next} (ran : exec (Memory.host.next s edgeId) m = (.ok n, m')) :
    move config ⟨s, m⟩ (.next edgeId) = ⟨n.session, m'⟩ := by
  simp only [move]
  rw [exec_map, ran, proceed_ok]
  rfl

end World

/-! ### What a move can do -/

/-- All that a move can do to a session with an active frame. -/
inductive Turn (config : Config) (current : Frame) (beneath : List Frame) (extra : Entries)
    (m : Memory) : Move → World → Prop
  /-- A block pushes nothing; no result is closed. -/
  | idle (b : Block) (calls : List Call) (quiet : ∀ c ∈ calls, c.closes = false) :
    Turn config current beneath extra m (.execute b) ⟨⟨current :: beneath, extra⟩, m.note calls⟩
  /-- A link pushes another frame for the active flow. -/
  | again (b : Block) (options : LinkOptions) (groupId : String) (p : Push)
    (wanted : b.linkOptions = .ok options)
    (held : current.flow.existing options.group? = some groupId)
    (pushed : p = current.pushAgain b groupId m.ids) :
    Turn config current beneath extra m (.execute b)
      ⟨⟨p.top :: p.caller :: beneath, extra⟩, m.withIds p.ids⟩
  /-- A link pushes a frame for another flow. -/
  | other (b : Block) (options : LinkOptions) (flowId : String) (linked : Flow) (groupId : String)
    (p : Push) (wanted : b.linkOptions = .ok options) (named : options.flow? = some flowId)
    (found : m.found current.isPreview flowId = .ok (some linked))
    (held : linked.existing (linked.entryGroup options.group?) = some groupId)
    (pushed : p = current.pushOther beneath b
      (current.flow.mergesLinked options.mergesResults config.mergesByDefault) linked groupId
      m.ids) :
    Turn config current beneath extra m (.execute b)
      ⟨⟨p.top :: p.caller :: beneath, extra⟩,
        ((m.note [Memory.reading current.isPreview flowId]).opened current).withIds p.ids⟩
  /-- An edge is followed, and every result that is to be closed is closed. -/
  | returned (edgeId : Option String) (u : Unwound) (unwound : u = unwind current beneath edgeId) :
    Turn config current beneath extra m (.next edgeId)
      ⟨⟨u.frames, extra⟩, m.wrote u.writes⟩
  /-- A result cannot be closed; those before it were. -/
  | stuck (edgeId : Option String) (done : List ResultWrite) (w : ResultWrite)
    (rest : List ResultWrite) (fault : StoreFault)
    (due : (unwind current beneath edgeId).writes = done ++ w :: rest)
    (fails : m.outage (m.wrote done).journal (.upsertResult w.id) = some fault) :
    Turn config current beneath extra m (.next edgeId)
      ⟨⟨current :: beneath, extra⟩, (m.wrote done).note [.upsertResult w.id]⟩
  | answered (a : Answer) :
    Turn config current beneath extra m (.answer a) ⟨⟨current.addAnswer a :: beneath, extra⟩, m⟩
  | edited (vars : List Variable) :
    Turn config current beneath extra m (.setVars vars)
      ⟨⟨current.withVars vars :: beneath, extra⟩, m⟩
  | restocked (drafts published : Table Definition) :
    Turn config current beneath extra m (.restock drafts published)
      ⟨⟨current :: beneath, extra⟩, { m with drafts := drafts, published := published }⟩

theorem turn_execute (config : Config) (current : Frame) (beneath : List Frame) (extra : Entries)
    (m : Memory) (b : Block) :
    Turn config current beneath extra m (.execute b)
      (World.move config ⟨⟨current :: beneath, extra⟩, m⟩ (.execute b)) := by
  simp only [World.move]
  by_cases h : b.type = Executor.linkType
  · rw [execute_link config _ h, exec_map]
    have outcome := link_outcome config extra current beneath b m
    generalize exec (Memory.host.link config ⟨current :: beneath, extra⟩ b) m = r at outcome
    cases outcome with
    | refused r calls quiet => exact .idle b calls quiet
    | aborted f calls quiet => exact .idle b calls quiet
    | again options groupId wanted held => exact .again b options groupId _ wanted held rfl
    | other options flowId linked groupId p wanted named found held pushed =>
      exact .other b options flowId linked groupId p wanted named found held pushed
  · have quiet : Turn config current beneath extra m (.execute b)
        ⟨⟨current :: beneath, extra⟩, m.note []⟩ := .idle b [] (by simp)
    rw [Memory.note_nil] at quiet
    rw [exec_map, execute_other config _ h, exec_pure]
    exact quiet

theorem turn_next (config : Config) (current : Frame) (beneath : List Frame) (extra : Entries)
    (m : Memory) (edgeId : Option String) :
    Turn config current beneath extra m (.next edgeId)
      (World.move config ⟨⟨current :: beneath, extra⟩, m⟩ (.next edgeId)) := by
  simp only [World.move]
  rw [exec_map, exec_next]
  rcases Memory.exec_closeAll (unwind current beneath edgeId).popped m with
    h | ⟨done, w, rest, fault, due, fails, h⟩
  · rw [h]
    exact .returned edgeId _ rfl
  · rw [h]
    exact .stuck edgeId done w rest fault due fails

/-- A move does one of the things listed. -/
theorem turn (config : Config) (current : Frame) (beneath : List Frame) (extra : Entries)
    (m : Memory) (mv : Move) :
    Turn config current beneath extra m mv
      (World.move config ⟨⟨current :: beneath, extra⟩, m⟩ mv) := by
  cases mv with
  | execute b => exact turn_execute config current beneath extra m b
  | next edgeId => exact turn_next config current beneath extra m edgeId
  | answer a => exact .answered a
  | setVars vars => exact .edited vars
  | restock drafts published => exact .restocked drafts published

namespace Turn

variable {config : Config} {current : Frame} {beneath : List Frame} {extra : Entries} {m : Memory}
  {mv : Move} {w : World}

theorem onward (done : Turn config current beneath extra m mv w) :
    m.ids.Onward w.memory.ids := by
  cases done with
  | again b options groupId p _ _ pushed =>
    subst pushed
    exact current.onward_pushAgain b groupId m.ids
  | other b options flowId linked groupId p _ _ _ _ pushed =>
    subst pushed
    exact current.onward_pushOther beneath b _ linked groupId m.ids
  | _ => exact .refl _

theorem outage (done : Turn config current beneath extra m mv w) :
    w.memory.outage = m.outage := by
  cases done with
  | other => exact Memory.opened_outage _ _
  | _ => rfl

/-- An id that a frame carries was carried before, or it has been drawn for the frame. -/
theorem carried (done : Turn config current beneath extra m mv w) (live : current.resultId ≠ none)
    {f : Frame} (hf : f ∈ w.session.frames) {r : String} (hr : f.resultId = some r) :
    (∃ k ∈ current :: beneath, k.resultId = some r) ∨ m.ids.Draws w.memory.ids r := by
  have active (g : Frame) (same : g.resultId = current.resultId) (hf : f ∈ g :: beneath) :
      ∃ k ∈ current :: beneath, k.resultId = some r := by
    rcases List.mem_cons.mp hf with rfl | hf
    · exact ⟨current, List.mem_cons_self, same.symm.trans hr⟩
    · exact ⟨f, List.mem_cons_of_mem _ hf, hr⟩
  cases done with
  | again b options groupId p _ _ pushed =>
    subst pushed
    left
    rcases List.mem_cons.mp hf with rfl | hf
    · exact ⟨current, List.mem_cons_self, hr⟩
    · exact active _ (by simp) hf
  | other b options flowId linked groupId p _ _ _ _ pushed =>
    generalize current.flow.mergesLinked _ _ = merges at pushed
    subst pushed
    rcases List.mem_cons.mp hf with rfl | hf
    · cases merges with
      | true =>
        rw [Frame.pushOther_joins] at hr
        exact .inl ⟨current, List.mem_cons_self, hr⟩
      | false =>
        obtain ⟨r', result, drawn⟩ := current.pushOther_forks beneath b linked groupId m.ids live
        obtain rfl : r' = r := by simpa [result] using hr
        exact .inr drawn
    · exact .inl (active _ (by simp) hf)
  | returned edgeId u unwound =>
    subst unwound
    obtain ⟨k, hk, result, -⟩ := unwind_kept (List.mem_append_right _ hf)
    exact .inl ⟨k, hk, result.trans hr⟩
  | answered a => exact .inl (active (current.addAnswer a) rfl hf)
  | edited vars => exact .inl (active (current.withVars vars) rfl hf)
  | _ => exact .inl ⟨f, hf, hr⟩

/-- A frame stays on the stack, with its result, its flow and the way it returns, unless a return
pops it. -/
theorem keeps (done : Turn config current beneath extra m mv w) {k : Frame}
    (hk : k ∈ current :: beneath) :
    (∃ f ∈ w.session.frames, f.resultId = k.resultId ∧ f.merges = k.merges ∧
      f.flow.id = k.flow.id) ∨
    ∃ edgeId, ∃ f ∈ (unwind current beneath edgeId).popped, mv = .next edgeId ∧
      f.shell = k.shell ∧ w = ⟨⟨(unwind current beneath edgeId).frames, extra⟩,
        m.wrote (unwind current beneath edgeId).writes⟩ := by
  have active (g : Frame) (result : g.resultId = current.resultId)
      (merges : g.merges = current.merges) (flow : g.flow.id = current.flow.id) :
      ∃ f ∈ g :: beneath, f.resultId = k.resultId ∧ f.merges = k.merges ∧
        f.flow.id = k.flow.id := by
    rcases List.mem_cons.mp hk with rfl | hk
    · exact ⟨g, List.mem_cons_self, result, merges, flow⟩
    · exact ⟨k, List.mem_cons_of_mem _ hk, rfl, rfl, rfl⟩
  cases done with
  | again b options groupId p _ _ pushed =>
    subst pushed
    obtain ⟨f, hf, same⟩ := active (current.pause b m.ids).caller (by simp) (by simp) (by simp)
    exact .inl ⟨f, List.mem_cons_of_mem _ hf, same⟩
  | other b options flowId linked groupId p _ _ _ _ pushed =>
    subst pushed
    obtain ⟨f, hf, same⟩ := active (current.pause b m.ids).caller (by simp) (by simp) (by simp)
    exact .inl ⟨f, List.mem_cons_of_mem _ hf, same⟩
  | returned edgeId u unwound =>
    subst unwound
    have shells := List.mem_map_of_mem (f := Frame.shell) hk
    rw [← unwind_shell beneath current edgeId] at shells
    obtain ⟨f, hf, same⟩ := List.mem_map.mp shells
    rcases List.mem_append.mp hf with popped | left
    · exact .inr ⟨edgeId, f, popped, rfl, same, rfl⟩
    · exact .inl ⟨f, left, congrArg (·.resultId) same, congrArg (·.merges) same,
        congrArg (·.flow.id) same⟩
  | answered a => exact .inl (active (current.addAnswer a) rfl rfl rfl)
  | edited vars => exact .inl (active (current.withVars vars) rfl rfl rfl)
  | _ => exact .inl ⟨k, hk, rfl, rfl, rfl⟩

end Turn

/-! ### Histories -/

namespace World

/-- What holds at the start, with nothing behind it, and survives a move holds behind every run. -/
theorem play_induct {P : List Move → World → Prop} (config : Config) (w : World) (start : P [] w)
    (step : ∀ moves mv, P moves (w.play config moves) →
      P (moves ++ [mv]) ((w.play config moves).move config mv)) (moves : List Move) :
    P moves (w.play config moves) := by
  induction moves using List.reverseRecOn with
  | nil => exact start
  | append_singleton moves mv ih =>
    rw [play_concat]
    exact step moves mv ih

/-- The result id of the active frame. -/
def activeResult (w : World) : Option String := w.session.active?.bind (·.resultId)

/-- The answers that a move gives to a result: one, if the active frame carries the result. -/
def gives (w : World) (resultId : String) : Move → List Answer
  | .answer a => if w.activeResult = some resultId then [a] else []
  | _ => []

/-- The answers that a run gives to a result, in order. -/
def given (config : Config) (resultId : String) : World → List Move → List Answer
  | _, [] => []
  | w, mv :: moves => w.gives resultId mv ++ given config resultId (w.move config mv) moves

theorem given_append (config : Config) (resultId : String) :
    ∀ (w : World) (a b : List Move), w.given config resultId (a ++ b) =
      w.given config resultId a ++ (w.play config a).given config resultId b
  | w, [], b => rfl
  | w, mv :: a, b => by
    simp only [List.cons_append, given, given_append config resultId _ a b, play_cons,
      List.append_assoc]

theorem given_concat (config : Config) (resultId : String) (w : World) (moves : List Move)
    (mv : Move) : w.given config resultId (moves ++ [mv]) =
      w.given config resultId moves ++ (w.play config moves).gives resultId mv := by
  rw [given_append]
  simp [given]

end World

/-! ### Answers that are edited -/

/-- A move, or an edit of the answers of the active frame. -/
inductive Act where
  | move (mv : Move)
  /-- The driver sets the answers of the active frame. -/
  | setAnswers (answers : List Answer)

/-- The frame with other answers. -/
def Frame.withAnswers (f : Frame) (answers : List Answer) : Frame := { f with answers := answers }

namespace World

/-- Performs a move, or edits the answers. -/
def act (config : Config) (w : World) : Act → World
  | .move mv => w.move config mv
  | .setAnswers answers => { w with session := w.session.onTop (·.withAnswers answers) }

/-- Performs some acts in order. -/
def enact (config : Config) (w : World) (acts : List Act) : World := acts.foldl (act config) w

@[simp] theorem enact_nil (config : Config) (w : World) : w.enact config [] = w := rfl

theorem enact_concat (config : Config) (w : World) (acts : List Act) (a : Act) :
    w.enact config (acts ++ [a]) = (w.enact config acts).act config a := by
  unfold enact
  rw [List.foldl_append]
  rfl

end World

/-! ### Moves and scripted steps -/

/-- The session of a stage with its stores. -/
def Stage.world (st : Stage) : World := ⟨st.session, st.memory⟩

/-- The scripted step that performs a move, if a script has it. -/
def Move.step? : Move → Option Step
  | .execute b => some (.execute (.given b) false true)
  | .next edgeId => some (.next (.given edgeId))
  | .answer a => some (.answer a)
  | .setVars _ => none
  | .restock _ _ => none

theorem Stage.perform_eq {α : Type} (st : Stage) (e : Engine Memory α) :
    st.perform e = ((exec e st.memory).1, { st with memory := (exec e st.memory).2 }) := rfl

/-- A scripted step does to a session and its stores what its move does. -/
theorem Stage.perform1_move (st : Stage) (default : st.registry = .default) {mv : Move}
    {step : Step} (h : mv.step? = some step) :
    (st.perform1 step).2.world = st.world.move st.config mv := by
  cases mv with
  | execute b =>
    obtain rfl : Step.execute (.given b) false true = step := by simpa [Move.step?] using h
    unfold perform1 block executeBlock
    simp only [perform_eq, default, world, World.move, exec_map,
      Bool.false_eq_true, if_false]
    rcases exec (Registry.default.execute Memory.host st.config st.session b) st.memory with
      ⟨f | ⟨_, _ | _, _⟩, m⟩ <;> rfl
  | next edgeId =>
    obtain rfl : Step.next (.given edgeId) = step := by simpa [Move.step?] using h
    unfold perform1 edge
    simp only [perform_eq, world, World.move, exec_map]
    rcases exec (Memory.host.next st.session edgeId) st.memory with ⟨f | n, m⟩ <;> rfl
  | answer a =>
    obtain rfl : Step.answer a = step := by simpa [Move.step?] using h
    unfold perform1
    simp only [world, World.move, Session.onTop]
    cases st.session.frames <;> rfl
  | setVars vars => simp [Move.step?] at h
  | restock drafts published => simp [Move.step?] at h

/-! ### A sample -/

namespace Sample

/-- Ids told by their length. -/
def ids : IdSource := ⟨fun n => String.ofList (List.replicate n 'i'), 1⟩

theorem neverRepeats : ids.NeverRepeats := by
  intro i j _ hij same
  have lengths : (List.replicate i 'i').length = (List.replicate j 'i').length :=
    congrArg List.length (String.ofList_inj.mp same)
  simp only [List.length_replicate] at lengths
  exact Nat.ne_of_lt hij lengths

/-- An id with another letter is never drawn. -/
theorem ids_spent {id : String} {c : Char} (h : c ∈ id.toList) (other : c ≠ 'i') :
    ids.Spent id := by
  intro n _ same
  have letters : List.replicate n 'i' = id.toList := by
    rw [← same]
    exact String.toList_ofList.symm
  rw [← letters] at h
  exact other (List.eq_of_mem_replicate h)

theorem spent : ids.Spent "r" := ids_spent List.mem_cons_self (by decide)

/-- A link block into a group of a flow. -/
def link (id flowId groupId : String) (mergesResults : Bool) : Block :=
  ⟨id, Executor.linkType, none, some (.object [("typebotId", .string flowId),
    ("groupId", .string groupId), ("mergeResults", .bool mergesResults)])⟩

/-- Links to the flow itself, into a survey that merges, and into an audit that does not. -/
def loop : Block := link "loop" "current" "g" true

@[inherit_doc loop]
def join : Block := link "join" "survey" "q" true

@[inherit_doc loop]
def fork : Block := link "fork" "audit" "q" false

/-- Goes on by an edge. -/
def step : Block := ⟨"step", "text", some "on", none⟩

/-- A flow of one group. -/
def flow : Flow := ⟨"f", none, [⟨"g", "", [loop, join, fork]⟩], [], [], [], ⟨none, []⟩, none⟩

/-- Some questions in one group. -/
def questions : Definition :=
  ⟨"questions", none, .array [.object [("id", .string "q")]], .null, .null, .null, .null⟩

/-- Stores with the questions published as a survey and as an audit. -/
def memory : Memory :=
  ((Memory.empty ids).publish "survey" questions).publish "audit" questions

/-- What the stores hold is the survey or the audit, without any edge. -/
theorem memory_found (preview : Bool) (flowId : String) :
    memory.found preview flowId = .ok none ∨ memory.found preview flowId =
      .ok (some ⟨flowId, none, [⟨"q", "", []⟩], [], [], [], .empty, none⟩) := by
  cases preview with
  | true => exact .inl rfl
  | false =>
    have stored : memory.definition? false flowId =
        Table.lookup flowId [("audit", questions), ("survey", questions)] := rfl
    simp only [Memory.found, stored, Table.lookup, Bool.false_eq_true, if_false]
    split_ifs
    · exact .inr rfl
    · exact .inr rfl
    · exact .inl rfl

/-- The flow is entered once more, answers and joins the survey, and the survey is answered and
finished. -/
def joining : List Move :=
  [.execute loop, .answer ⟨"name", "Ada", none⟩, .execute join, .answer ⟨"age", "36", none⟩,
    .next none, .answer ⟨"end", "yes", none⟩]

/-- The flow makes a fork, which is answered and finished. -/
def forking : List Move := [.execute fork, .answer ⟨"ok", "yes", none⟩, .next none]

end Sample

end Dialogue
