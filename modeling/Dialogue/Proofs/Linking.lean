import Dialogue.Executor
import Dialogue.Proofs.Engine

/-!
# What a link does

A link is a decision and its execution (`Host.link_eq`). The decision, `Host.course`, reads at most
one definition and writes nothing; it refuses the link or settles on a group of a flow. It is
nothing but what the link block wishes (`Frame.wish`) and what comes of a look-up
(`Host.course_eq`). The execution pushes a frame, which `Frame.pushAgain` and `Frame.pushOther`
describe without any request. `link_outcome` lists all that can come of a link on stores in memory,
and `link_visit` all that can come of one whose block wishes for another flow.
-/

namespace Dialogue

/-- What a link comes down to. -/
inductive Course where
  | refuse (r : Refusal)
  /-- Another frame for the active flow, entered at a group. -/
  | again (groupId : String)
  /-- A frame for another flow, entered at a group. -/
  | other (options : LinkOptions) (linked : Flow) (groupId : String)

variable {σ : Type}

/-- Decides a link. -/
def Host.course (host : Host σ) (config : Config) (current : Frame) (depth : Nat) (b : Block) :
    Engine σ Course :=
  match b.linkOptions with
  | .error m => return .refuse (.unreadableOptions m)
  | .ok options =>
    match options.flow? with
    | none => return .refuse .noTarget
    | some flowId =>
      if !config.allowsPush depth then return .refuse .tooDeep
      else if options.targetsActive current.flow.id then
        match current.flow.existing options.group? with
        | none => return .refuse (.unknownGroup options.group?)
        | some groupId => return .again groupId
      else do
        match ← host.fetch current.isPreview flowId with
        | none => return .refuse (.unknownFlow flowId)
        | some linked =>
          match linked.existing (linked.entryGroup options.group?) with
          | none => return .refuse (.unknownGroup options.group?)
          | some groupId => return .other options linked groupId

/-- Executes what was decided. -/
def Host.take (host : Host σ) (config : Config) (s : Session) (current : Frame)
    (beneath : List Frame) (b : Block) : Course → Engine σ Reply
  | .refuse r => return b.refuse r
  | .again groupId => do
    let pushed ← host.pushSame s current beneath b
    host.enter pushed groupId
  | .other options linked groupId => do
    let pushed ← host.pushOther config s current beneath b options linked
    host.enter pushed groupId

/-- A link decides first, and then executes. -/
theorem Host.link_eq (host : Host σ) (config : Config) (extra : Entries) (current : Frame)
    (beneath : List Frame) (b : Block) :
    host.link config ⟨current :: beneath, extra⟩ b =
      host.course config current (beneath.length + 1) b >>=
        host.take config ⟨current :: beneath, extra⟩ current beneath b := by
  unfold link course
  cases b.linkOptions with
  | error m => rfl
  | ok options =>
    dsimp only [Session.depth, List.length_cons]
    cases options.flow? with
    | none => rfl
    | some flowId =>
      by_cases deep : config.allowsPush (beneath.length + 1) = true
      · by_cases active : options.targetsActive current.flow.id = true
        · simp only [deep, active, Bool.not_true, Bool.false_eq_true, if_false, if_true]
          cases current.flow.existing options.group? <;> rfl
        · simp only [deep, active, Bool.not_true, Bool.false_eq_true, if_false]
          rw [bind_assoc]
          congr 1
          funext found
          cases found with
          | none => rfl
          | some linked =>
            dsimp only
            cases linked.existing (linked.entryGroup options.group?) <;> rfl
      · simp only [deep, Bool.not_false, if_true]
        rfl

/-! ### Blocks that are executed -/

section

variable {host : Host σ} (config : Config) (s : Session) {b : Block}

/-- A link block is executed as a link. -/
theorem execute_link (h : b.type = Executor.linkType) :
    Registry.default.execute host config s b = host.link config s b := by
  have found : (Registry.default : Registry σ).executor? b.type = some Executor.link := by
    simp [Registry.default, Registry.executor?, h]
  simp [Registry.execute, found, Executor.link]

/-- A block of a type without an executor does nothing. -/
theorem execute_other (h : b.type ≠ Executor.linkType) :
    Registry.default.execute host config s b = pure ⟨b.outgoingEdgeId, none, []⟩ := by
  have none : (Registry.default : Registry σ).executor? b.type = none := by
    simp [Registry.default, Registry.executor?, List.lookup_cons, beq_eq_false_iff_ne.mpr h]
  simp [Registry.execute, none]

end

/-! ### What a link block wishes -/

/-- What a link block wishes. -/
inductive Wish where
  | refuse (r : Refusal)
  /-- Another frame for the active flow, entered at a group. -/
  | again (groupId : String)
  /-- A frame for a flow that has to be looked up. -/
  | visit (options : LinkOptions) (flowId : String)

/-- What a link block wishes in the active frame of a session of some depth. -/
def Frame.wish (current : Frame) (config : Config) (depth : Nat) (b : Block) : Wish :=
  match b.linkOptions with
  | .error m => .refuse (.unreadableOptions m)
  | .ok options =>
    match options.flow? with
    | none => .refuse .noTarget
    | some flowId =>
      if !config.allowsPush depth then .refuse .tooDeep
      else if options.targetsActive current.flow.id then
        match current.flow.existing options.group? with
        | none => .refuse (.unknownGroup options.group?)
        | some groupId => .again groupId
      else .visit options flowId

/-- What comes of a wish for another flow, by what the look-up finds. -/
def LinkOptions.land (o : LinkOptions) (flowId : String) : Option Flow → Course
  | none => .refuse (.unknownFlow flowId)
  | some linked =>
    match linked.existing (linked.entryGroup o.group?) with
    | none => .refuse (.unknownGroup o.group?)
    | some groupId => .other o linked groupId

/-- A decision is a wish and at most one look-up. -/
theorem Host.course_eq (host : Host σ) (config : Config) (current : Frame) (depth : Nat)
    (b : Block) : host.course config current depth b =
      match current.wish config depth b with
      | .refuse r => pure (.refuse r)
      | .again groupId => pure (.again groupId)
      | .visit options flowId => options.land flowId <$> host.fetch current.isPreview flowId := by
  unfold course Frame.wish
  cases b.linkOptions with
  | error m => rfl
  | ok options =>
    dsimp only
    cases options.flow? with
    | none => rfl
    | some flowId =>
      dsimp only
      split_ifs
      · rfl
      · cases current.flow.existing options.group? <;> rfl
      · dsimp only
        rw [← bind_pure_comp]
        congr 1
        funext found
        cases found with
        | none => rfl
        | some linked =>
          dsimp only [LinkOptions.land, Function.comp_apply]
          cases linked.existing (linked.entryGroup options.group?) <;> rfl

/-- A wish for the active flow names one of its groups, and a wish for another flow names the flow,
as the options of the block say. -/
theorem Frame.wish_spec (current : Frame) (config : Config) (depth : Nat) (b : Block) :
    match current.wish config depth b with
    | .refuse _ => True
    | .again groupId => ∃ options, b.linkOptions = .ok options ∧
        current.flow.existing options.group? = some groupId
    | .visit options flowId => b.linkOptions = .ok options ∧ options.flow? = some flowId := by
  unfold Frame.wish
  cases b.linkOptions with
  | error m => trivial
  | ok options =>
    dsimp only
    cases named : options.flow? with
    | none => trivial
    | some flowId =>
      dsimp only
      split_ifs
      · trivial
      · cases held : current.flow.existing options.group? with
        | none => trivial
        | some groupId => exact ⟨options, rfl, held⟩
      · exact ⟨rfl, named⟩

/-- A flow that has the group where it is entered is landed on there. -/
theorem LinkOptions.land_of_held {o : LinkOptions} {linked : Flow} {groupId : String}
    (held : linked.existing (linked.entryGroup o.group?) = some groupId) (flowId : String) :
    o.land flowId (some linked) = .other o linked groupId := by
  simp only [land, held]

/-- A look-up that leads to a group has found the flow of the group. -/
theorem LinkOptions.land_spec (o : LinkOptions) (flowId : String) (found : Option Flow) :
    (∃ r, o.land flowId found = .refuse r) ∨
      ∃ linked groupId, found = some linked ∧
        linked.existing (linked.entryGroup o.group?) = some groupId ∧
        o.land flowId found = .other o linked groupId := by
  cases found with
  | none => exact .inl ⟨_, rfl⟩
  | some linked =>
    cases held : linked.existing (linked.entryGroup o.group?) with
    | none =>
      dsimp only [land]
      rw [held]
      exact .inl ⟨_, rfl⟩
    | some groupId => exact .inr ⟨linked, groupId, rfl, held, land_of_held held flowId⟩

/-! ### Pushing a frame -/

/-- A caller left waiting. -/
structure Pause where
  caller : Frame
  /-- The edge of the caller to return through. -/
  returnEdgeId : Option String
  /-- The ids left. -/
  ids : IdSource

/-- A caller is left waiting behind a block. -/
def Frame.pause (f : Frame) (b : Block) (ids : IdSource) : Pause :=
  match f.flow.resumeTarget? b with
  | some t =>
    ⟨f.withEdge ⟨ids.next.1, .unset, t⟩, some (b.outgoingEdgeId.getD ids.next.1), ids.next.2⟩
  | none => ⟨f, b.outgoingEdgeId, ids⟩

/-- A frame pushed, its caller, the id of the edge into it, and the ids left. -/
structure Push where
  top : Frame
  caller : Frame
  edgeId : String
  ids : IdSource

/-- The answer of a link that pushes a frame. -/
def Push.reply (p : Push) (beneath : List Frame) (extra : Entries) : Reply :=
  ⟨some p.edgeId, some ⟨p.top :: p.caller :: beneath, extra⟩, []⟩

/-- A frame is pushed upon a waiting caller and entered at a group. -/
def Pause.push (p : Pause) (top : Frame) (groupId : String) (ids : IdSource) : Push :=
  ⟨top.withEdge ⟨ids.next.1, .unset, ⟨groupId, none⟩⟩, p.caller, ids.next.1, ids.next.2⟩

/-- Another frame for the active flow. -/
def Frame.pushAgain (current : Frame) (b : Block) (groupId : String) (ids : IdSource) : Push :=
  let p := current.pause b ids
  p.push ⟨current.flow, current.resultId, p.returnEdgeId, current.answers, true⟩ groupId p.ids

/-- The result id of a frame for another flow, and the ids left. -/
def Frame.resultFor (current : Frame) (merges : Bool) (ids : IdSource) :
    Option String × IdSource :=
  match current.resultId with
  | none => (none, ids)
  | some id => if merges then (some id, ids) else (some ids.next.1, ids.next.2)

/-- A frame for another flow. -/
def Frame.pushOther (current : Frame) (beneath : List Frame) (b : Block) (merges : Bool)
    (linked : Flow) (groupId : String) (ids : IdSource) : Push :=
  let p := current.pause b ids
  let r := current.resultFor merges p.ids
  p.push ⟨linked.withVariables (fill linked.vars (current :: beneath)), r.1, p.returnEdgeId,
    if merges then current.answers else [], merges⟩ groupId r.2

/-! ### Ids drawn by a push -/

namespace IdSource

/-- Nothing but drawing leads from one source to another. -/
structure Onward (a b : IdSource) : Prop where
  same : b.id = a.id
  later : a.drawn ≤ b.drawn

/-- An id that the source will not yield any more. -/
def Spent (s : IdSource) (id : String) : Prop := ∀ n, s.drawn ≤ n → s.id n ≠ id

/-- The source yields no id twice. -/
def NeverRepeats (s : IdSource) : Prop := ∀ i j, s.drawn ≤ i → i < j → s.id i ≠ s.id j

/-- An id drawn on the way from one source to another. -/
def Draws (a b : IdSource) (id : String) : Prop := ∃ n, a.drawn ≤ n ∧ n < b.drawn ∧ a.id n = id

variable {a b c : IdSource} {id : String}

theorem Onward.refl (a : IdSource) : a.Onward a := ⟨rfl, Nat.le_refl _⟩

theorem Onward.trans (h : a.Onward b) (h' : b.Onward c) : a.Onward c :=
  ⟨h'.same.trans h.same, Nat.le_trans h.later h'.later⟩

theorem onward_next (a : IdSource) : a.Onward a.next.2 := ⟨rfl, Nat.le_succ _⟩

theorem draws_next (a : IdSource) : a.Draws a.next.2 a.next.1 :=
  ⟨a.drawn, Nat.le_refl _, Nat.lt_succ_self _, rfl⟩

theorem Spent.onward (h : a.Spent id) (hab : a.Onward b) : b.Spent id := by
  intro n hn
  rw [hab.same]
  exact h n (Nat.le_trans hab.later hn)

theorem NeverRepeats.onward (h : a.NeverRepeats) (hab : a.Onward b) : b.NeverRepeats := by
  intro i j hi hij
  rw [hab.same]
  exact h i j (Nat.le_trans hab.later hi) hij

/-- An id on the way lies within every longer way. -/
theorem Draws.within (h : b.Draws c id) (hab : a.Onward b) {d : IdSource} (hcd : c.Onward d) :
    a.Draws d id := by
  obtain ⟨n, hn, hn', rfl⟩ := h
  exact ⟨n, Nat.le_trans hab.later hn, Nat.lt_of_lt_of_le hn' hcd.later, by rw [hab.same]⟩

/-- What is drawn was not spent before. -/
theorem Draws.not_spent (h : a.Draws b id) : ¬ a.Spent id := by
  obtain ⟨n, hn, -, rfl⟩ := h
  exact fun hs => hs n hn rfl

/-- What is drawn is spent afterwards. -/
theorem Draws.spent (h : a.Draws b id) (fresh : a.NeverRepeats) (hab : a.Onward b) :
    b.Spent id := by
  obtain ⟨n, hn, hn', rfl⟩ := h
  intro k hk
  rw [hab.same]
  exact (fresh n k hn (Nat.lt_of_lt_of_le hn' hk)).symm

end IdSource

section

variable (current : Frame) (beneath : List Frame) (b : Block) (merges : Bool) (linked : Flow)
  (groupId : String) (ids : IdSource)

theorem Frame.onward_pause : ids.Onward (current.pause b ids).ids := by
  unfold pause
  split
  · exact ids.onward_next
  · exact .refl ids

theorem Frame.onward_resultFor : ids.Onward (current.resultFor merges ids).2 := by
  unfold resultFor
  split
  · exact .refl ids
  · split
    · exact .refl ids
    · exact ids.onward_next

theorem Frame.onward_pushAgain : ids.Onward (current.pushAgain b groupId ids).ids :=
  (current.onward_pause b ids).trans (IdSource.onward_next _)

theorem Frame.onward_pushOther :
    ids.Onward (current.pushOther beneath b merges linked groupId ids).ids :=
  ((current.onward_pause b ids).trans (current.onward_resultFor merges _)).trans
    (IdSource.onward_next _)

/-- A waiting caller differs from what it was by the edge to resume through, if by anything. -/
theorem Frame.pause_caller : (current.pause b ids).caller = current ∨
    ∃ e, (current.pause b ids).caller = current.withEdge e := by
  unfold pause
  split
  · exact .inr ⟨_, rfl⟩
  · exact .inl rfl

@[simp] theorem Frame.pause_resultId :
    (current.pause b ids).caller.resultId = current.resultId := by
  rcases current.pause_caller b ids with h | ⟨e, h⟩ <;> simp [h, withEdge, Flow.withEdge]

@[simp] theorem Frame.pause_answers : (current.pause b ids).caller.answers = current.answers := by
  rcases current.pause_caller b ids with h | ⟨e, h⟩ <;> simp [h, withEdge, Flow.withEdge]

@[simp] theorem Frame.pause_merges : (current.pause b ids).caller.merges = current.merges := by
  rcases current.pause_caller b ids with h | ⟨e, h⟩ <;> simp [h, withEdge, Flow.withEdge]

@[simp] theorem Frame.pause_flow_id : (current.pause b ids).caller.flow.id = current.flow.id := by
  rcases current.pause_caller b ids with h | ⟨e, h⟩ <;> simp [h, withEdge, Flow.withEdge]

@[simp] theorem Frame.pushAgain_caller :
    (current.pushAgain b groupId ids).caller = (current.pause b ids).caller := rfl

@[simp] theorem Frame.pushAgain_resultId :
    (current.pushAgain b groupId ids).top.resultId = current.resultId := rfl

@[simp] theorem Frame.pushAgain_answers :
    (current.pushAgain b groupId ids).top.answers = current.answers := rfl

@[simp] theorem Frame.pushAgain_merges : (current.pushAgain b groupId ids).top.merges = true := rfl

@[simp] theorem Frame.pushAgain_flow_id :
    (current.pushAgain b groupId ids).top.flow.id = current.flow.id := rfl

@[simp] theorem Frame.pushOther_caller :
    (current.pushOther beneath b merges linked groupId ids).caller =
      (current.pause b ids).caller := rfl

@[simp] theorem Frame.pushOther_answers :
    (current.pushOther beneath b merges linked groupId ids).top.answers =
      if merges then current.answers else [] := rfl

/-- A merging frame for another flow writes to the result of its caller. -/
theorem Frame.pushOther_joins :
    (current.pushOther beneath b true linked groupId ids).top.resultId = current.resultId := by
  simp only [pushOther, Pause.push, Frame.withEdge, resultFor]
  cases h : current.resultId <;> simp

/-- A frame that does not merge writes to a result of its own, under an id drawn for it. -/
theorem Frame.pushOther_forks (live : current.resultId ≠ none) :
    ∃ id, (current.pushOther beneath b false linked groupId ids).top.resultId = some id ∧
      ids.Draws (current.pushOther beneath b false linked groupId ids).ids id := by
  obtain ⟨r, hr⟩ := Option.ne_none_iff_exists'.mp live
  refine ⟨(current.pause b ids).ids.next.1, ?_, ?_⟩
  · simp [pushOther, Pause.push, withEdge, resultFor, hr]
  · have drawn := (current.pause b ids).ids.draws_next
    refine drawn.within (current.onward_pause b ids) ?_
    simp only [pushOther, Pause.push, resultFor, hr, Bool.false_eq_true, if_false]
    exact IdSource.onward_next _

end

/-! ### Requests of an execution -/

/-- What is recorded for a caller without answers before it links to another flow. -/
def Frame.opening? (f : Frame) : Option ResultWrite :=
  if f.answers.isEmpty then f.resultId.map fun id => ⟨id, f.flow, false, false⟩ else none

namespace Memory

/-- The stores once the result of a caller is sure to be recorded. -/
def opened (m : Memory) (current : Frame) : Memory :=
  match current.opening? with
  | none => m
  | some w =>
    { m with results := Ledger.ensure m.results w, journal := m.journal ++ [.ensureResult w.id] }

@[simp] theorem opened_ids (m : Memory) (current : Frame) : (m.opened current).ids = m.ids := by
  unfold opened
  split <;> rfl

@[simp] theorem opened_outage (m : Memory) (current : Frame) :
    (m.opened current).outage = m.outage := by
  unfold opened
  split <;> rfl

@[simp] theorem opened_drafts (m : Memory) (current : Frame) :
    (m.opened current).drafts = m.drafts := by
  unfold opened
  split <;> rfl

@[simp] theorem opened_published (m : Memory) (current : Frame) :
    (m.opened current).published = m.published := by
  unfold opened
  split <;> rfl

theorem opened_journal (m : Memory) (current : Frame) :
    m.journal <+: (m.opened current).journal := by
  unfold opened
  split
  · exact List.prefix_refl _
  · exact List.prefix_append ..

/-- A record is what it was, or it is the one that an unanswered caller lacked. -/
theorem opened_get? {m : Memory} {current : Frame} {r : String} {row : ResultRow}
    (h : (m.opened current).results.get? r = some row) :
    m.results.get? r = some row ∨ m.results.get? r = none ∧ current.resultId = some r ∧
      current.answers = [] ∧ row = (⟨r, current.flow, false, false⟩ : ResultWrite).row := by
  unfold opened Frame.opening? at h
  by_cases ha : current.answers = []
  · cases hr : current.resultId with
    | none => exact .inl (by simpa [ha, hr] using h)
    | some id =>
      simp only [ha, hr, List.isEmpty_nil, if_true, Option.map_some] at h
      by_cases same : id = r
      · subst same
        have put := Ledger.get?_ensure_self m.results ⟨id, current.flow, false, false⟩
        rw [h] at put
        cases old : m.results.get? id with
        | none => exact .inr ⟨rfl, rfl, ha, by simpa [old] using put⟩
        | some u => exact .inl (by simpa [old] using put.symm)
      · exact .inl (by rwa [Ledger.get?_ensure_of_ne (h := same)] at h)
  · exact .inl (by simpa [ha] using h)

/-- What is on record stays as it is. -/
theorem opened_kept {m : Memory} {r : String} {row : ResultRow} (current : Frame)
    (h : m.results.get? r = some row) : (m.opened current).results.get? r = some row := by
  unfold opened
  split
  · exact h
  · rename_i w _
    by_cases same : w.id = r
    · subst same
      simp [Ledger.get?_ensure_self, h]
    · simpa [Ledger.get?_ensure_of_ne (h := same)] using h

/-- Only the record of the caller's result may appear. -/
theorem opened_get?_of_ne {current : Frame} {r : String} (m : Memory)
    (other : current.resultId ≠ some r) : (m.opened current).results.get? r = m.results.get? r := by
  cases old : m.results.get? r with
  | some row => exact opened_kept current old
  | none =>
    by_contra found
    obtain ⟨row, found⟩ := Option.ne_none_iff_exists'.mp found
    rcases opened_get? found with h | ⟨-, carries, -⟩
    · simp [old] at h
    · exact other carries

/-- The result of an unanswered caller is on record afterwards. -/
theorem opened_recorded {current : Frame} {r : String} (m : Memory)
    (unanswered : current.answers = []) (result : current.resultId = some r) :
    (m.opened current).results.get? r ≠ none := by
  have write : current.opening? = some ⟨r, current.flow, false, false⟩ := by
    simp [Frame.opening?, unanswered, result]
  simp only [opened, write, ne_eq]
  rw [Ledger.get?_ensure_self]
  simp

theorem exec_ensure (w : ResultWrite) (m : Memory) :
    exec (ask (host.ensure w)) m =
      match m.outage m.journal (.ensureResult w.id) with
      | some fault => (.error (.store fault), m.note [.ensureResult w.id])
      | none =>
        (.ok (), { m with
          results := Ledger.ensure m.results w
          journal := m.journal ++ [.ensureResult w.id] }) := by
  change exec (ask (answer (.ensureResult w.id) fun m =>
    ((), { m with results := Ledger.ensure m.results w }))) m = _
  rw [exec_ask_answer]
  cases m.outage m.journal (.ensureResult w.id) <;> rfl

/-- The result of the caller is recorded, or the request for it fails. -/
theorem exec_ensureStarted (current : Frame) (m : Memory) :
    exec (host.ensureStarted current) m = (.ok (), m.opened current) ∨
      ∃ w fault, current.opening? = some w ∧
        m.outage m.journal (.ensureResult w.id) = some fault ∧
        exec (host.ensureStarted current) m =
          (.error (.store fault), m.note [.ensureResult w.id]) := by
  cases hr : current.resultId with
  | none => left; simp [Host.ensureStarted, opened, Frame.opening?, hr]
  | some id =>
    cases ha : current.answers.isEmpty with
    | false => left; simp [Host.ensureStarted, opened, Frame.opening?, hr, ha]
    | true =>
      have write : current.opening? = some ⟨id, current.flow, false, false⟩ := by
        simp [Frame.opening?, hr, ha]
      have run : exec (host.ensureStarted current) m =
          exec (ask (host.ensure ⟨id, current.flow, false, false⟩)) m := by
        simp [Host.ensureStarted, hr, ha]
      rw [run, exec_ensure]
      cases ho : m.outage m.journal (.ensureResult id) with
      | none => left; simp [opened, write]
      | some fault => right; exact ⟨_, fault, write, ho, rfl⟩

/-- Without an outage the result of the caller is recorded. -/
theorem exec_ensureStarted_healthy {m : Memory} (healthy : m.outage = Outage.none)
    (current : Frame) : exec (host.ensureStarted current) m = (.ok (), m.opened current) := by
  rcases exec_ensureStarted current m with h | ⟨w, fault, -, fails, -⟩
  · exact h
  · simp [healthy, Outage.none] at fails

theorem exec_pause (current : Frame) (b : Block) (m : Memory) :
    exec (host.pause current b) m =
      (.ok ((current.pause b m.ids).caller, (current.pause b m.ids).returnEdgeId),
        m.withIds (current.pause b m.ids).ids) := by
  unfold Host.pause Host.resumeEdge Frame.pause
  cases current.flow.resumeTarget? b with
  | none => simp
  | some t => simp [Host.edgeTo]

theorem exec_enter (top : Frame) (beneath : List Frame) (extra : Entries) (groupId : String)
    (m : Memory) :
    exec (host.enter ⟨top :: beneath, extra⟩ groupId) m =
      (.ok ⟨some m.ids.next.1,
        some ⟨top.withEdge ⟨m.ids.next.1, .unset, ⟨groupId, none⟩⟩ :: beneath, extra⟩, []⟩,
        m.withIds m.ids.next.2) := by
  simp [Host.enter, Host.edgeTo, Session.withEdge]

theorem exec_resultIdFor (current : Frame) (merges : Bool) (m : Memory) :
    exec (host.resultIdFor current merges) m =
      (.ok (current.resultFor merges m.ids).1, m.withIds (current.resultFor merges m.ids).2) := by
  unfold Host.resultIdFor Frame.resultFor
  cases current.resultId with
  | none => simp
  | some id => cases merges <;> simp

/-- Another frame for the active flow is pushed without any request. -/
theorem exec_take_again (config : Config) (extra : Entries) (current : Frame)
    (beneath : List Frame) (b : Block) (groupId : String) (m : Memory) :
    exec (host.take config ⟨current :: beneath, extra⟩ current beneath b (.again groupId)) m =
      (.ok ((current.pushAgain b groupId m.ids).reply beneath extra),
        m.withIds (current.pushAgain b groupId m.ids).ids) := by
  simp only [Host.take, Host.pushSame, exec_bind, exec_pause, proceed_ok, exec_pure, exec_enter,
    withIds_ids, withIds_withIds]
  rfl

/-- A frame for another flow is pushed once the result of the caller is recorded. -/
theorem exec_take_other (config : Config) (extra : Entries) (current : Frame)
    (beneath : List Frame) (b : Block) (options : LinkOptions) (linked : Flow) (groupId : String)
    (m : Memory) :
    exec (host.take config ⟨current :: beneath, extra⟩ current beneath b
        (.other options linked groupId)) m =
      proceed (exec (host.ensureStarted current) m) fun _ m' =>
        let merges := current.flow.mergesLinked options.mergesResults config.mergesByDefault
        let p := current.pushOther beneath b merges linked groupId m'.ids
        (.ok (p.reply beneath extra), m'.withIds p.ids) := by
  simp only [Host.take, Host.pushOther, exec_bind]
  rcases exec (host.ensureStarted current) m with ⟨e | u, m'⟩
  · rfl
  · simp only [exec_bind, exec_pause, exec_resultIdFor, proceed_ok, exec_pure, exec_enter,
      withIds_ids, withIds_withIds]
    rfl

end Memory

/-! ### Links in memory -/

section

variable {config : Config} {current : Frame} {beneath : List Frame} {extra : Entries} {b : Block}
  {m : Memory}

theorem exec_link_refuse {r : Refusal}
    (wish : current.wish config (beneath.length + 1) b = .refuse r) :
    exec (Memory.host.link config ⟨current :: beneath, extra⟩ b) m = (.ok (b.refuse r), m) := by
  rw [Host.link_eq, Host.course_eq, wish]
  rfl

theorem exec_link_again {groupId : String}
    (wish : current.wish config (beneath.length + 1) b = .again groupId) :
    exec (Memory.host.link config ⟨current :: beneath, extra⟩ b) m =
      (.ok ((current.pushAgain b groupId m.ids).reply beneath extra),
        m.withIds (current.pushAgain b groupId m.ids).ids) := by
  rw [Host.link_eq, Host.course_eq, wish, exec_bind, exec_pure, proceed_ok, Memory.exec_take_again]

/-- A wish for another flow makes one look-up. -/
theorem exec_link_visit {options : LinkOptions} {flowId : String}
    (wish : current.wish config (beneath.length + 1) b = .visit options flowId) :
    exec (Memory.host.link config ⟨current :: beneath, extra⟩ b) m =
      match m.outage m.journal (Memory.reading current.isPreview flowId) with
      | some fault => (.error (.store fault), m.note [Memory.reading current.isPreview flowId])
      | none =>
        proceed (m.found current.isPreview flowId,
            m.note [Memory.reading current.isPreview flowId]) fun found =>
          exec (Memory.host.take config ⟨current :: beneath, extra⟩ current beneath b
            (options.land flowId found)) := by
  rw [Host.link_eq, Host.course_eq, wish, exec_bind, exec_map, Memory.exec_fetch]
  cases m.outage m.journal (Memory.reading current.isPreview flowId) with
  | some fault => rfl
  | none => cases m.found current.isPreview flowId <;> rfl

/-- All that can come of a wish for another flow: the look-up fails, or it gives a definition that
cannot be decoded, or the link is refused; or the result of the caller cannot be recorded, or a
frame is pushed for the flow that was found. -/
inductive Visited (config : Config) (m : Memory) (extra : Entries) (current : Frame)
    (beneath : List Frame) (b : Block) (options : LinkOptions) (flowId : String) :
    Except Fault Reply × Memory → Prop
  | unanswered (fault : StoreFault)
    (fails : m.outage m.journal (Memory.reading current.isPreview flowId) = some fault) :
    Visited config m extra current beneath b options flowId
      (.error (.store fault), m.note [Memory.reading current.isPreview flowId])
  | undecoded (f : Fault) (bad : m.found current.isPreview flowId = .error f) :
    Visited config m extra current beneath b options flowId
      (.error f, m.note [Memory.reading current.isPreview flowId])
  | refused (found : Option Flow) (r : Refusal)
    (known : m.found current.isPreview flowId = .ok found)
    (landed : options.land flowId found = .refuse r) :
    Visited config m extra current beneath b options flowId
      (.ok (b.refuse r), m.note [Memory.reading current.isPreview flowId])
  | unrecorded (linked : Flow) (w : ResultWrite) (fault : StoreFault)
    (known : m.found current.isPreview flowId = .ok (some linked))
    (fails : m.outage (m.journal ++ [Memory.reading current.isPreview flowId])
      (.ensureResult w.id) = some fault) :
    Visited config m extra current beneath b options flowId
      (.error (.store fault),
        m.note [Memory.reading current.isPreview flowId, .ensureResult w.id])
  | pushed (linked : Flow) (groupId : String) (p : Push)
    (known : m.found current.isPreview flowId = .ok (some linked))
    (held : linked.existing (linked.entryGroup options.group?) = some groupId)
    (pushed : p = current.pushOther beneath b
      (current.flow.mergesLinked options.mergesResults config.mergesByDefault) linked groupId
      m.ids) :
    Visited config m extra current beneath b options flowId
      (.ok (p.reply beneath extra),
        ((m.note [Memory.reading current.isPreview flowId]).opened current).withIds p.ids)

theorem link_visit {options : LinkOptions} {flowId : String} {r : Except Fault Reply × Memory}
    (wish : current.wish config (beneath.length + 1) b = .visit options flowId)
    (ran : exec (Memory.host.link config ⟨current :: beneath, extra⟩ b) m = r) :
    Visited config m extra current beneath b options flowId r := by
  rw [← ran, exec_link_visit wish]
  cases fails : m.outage m.journal (Memory.reading current.isPreview flowId) with
  | some fault => exact .unanswered fault fails
  | none =>
    cases known : m.found current.isPreview flowId with
    | error f => exact .undecoded f known
    | ok found =>
      dsimp only [proceed_ok]
      rcases options.land_spec flowId found with ⟨r, landed⟩ | ⟨linked, groupId, rfl, held, landed⟩
      · rw [landed]
        exact .refused found r known landed
      · rw [landed, Memory.exec_take_other]
        rcases Memory.exec_ensureStarted current
          (m.note [Memory.reading current.isPreview flowId]) with h | ⟨w, fault, -, fails, h⟩
        · rw [h, proceed_ok, Memory.opened_ids]
          exact .pushed linked groupId _ known held rfl
        · rw [h, proceed_error, Memory.note_note]
          exact .unrecorded linked w fault known fails

end

/-! ### All that can come of a link -/

/-- Whether a request closes a result. -/
def Call.closes : Call → Bool
  | .upsertResult _ => true
  | _ => false

theorem Memory.reading_closes (preview : Bool) (flowId : String) :
    ∀ c ∈ [reading preview flowId], c.closes = false := by
  cases preview <;> simp [reading, Call.closes]

/-- What a link can come to: nothing is pushed and no result is closed, or a frame is pushed for the
active flow without any request, or one for a flow that was found, once the result of the caller is
recorded. -/
inductive LinkOutcome (config : Config) (m : Memory) (extra : Entries) (current : Frame)
    (beneath : List Frame) (b : Block) : Except Fault Reply × Memory → Prop
  | refused (r : Refusal) (calls : List Call) (quiet : ∀ c ∈ calls, c.closes = false) :
    LinkOutcome config m extra current beneath b (.ok (b.refuse r), m.note calls)
  | aborted (f : Fault) (calls : List Call) (quiet : ∀ c ∈ calls, c.closes = false) :
    LinkOutcome config m extra current beneath b (.error f, m.note calls)
  | again (options : LinkOptions) (groupId : String) (wanted : b.linkOptions = .ok options)
    (held : current.flow.existing options.group? = some groupId) :
    LinkOutcome config m extra current beneath b
      (.ok ((current.pushAgain b groupId m.ids).reply beneath extra),
        m.withIds (current.pushAgain b groupId m.ids).ids)
  | other (options : LinkOptions) (flowId : String) (linked : Flow) (groupId : String) (p : Push)
    (wanted : b.linkOptions = .ok options) (named : options.flow? = some flowId)
    (found : m.found current.isPreview flowId = .ok (some linked))
    (held : linked.existing (linked.entryGroup options.group?) = some groupId)
    (pushed : p = current.pushOther beneath b
      (current.flow.mergesLinked options.mergesResults config.mergesByDefault) linked groupId
      m.ids) :
    LinkOutcome config m extra current beneath b
      (.ok (p.reply beneath extra),
        ((m.note [Memory.reading current.isPreview flowId]).opened current).withIds p.ids)

theorem link_outcome (config : Config) (extra : Entries) (current : Frame) (beneath : List Frame)
    (b : Block) (m : Memory) :
    LinkOutcome config m extra current beneath b
      (exec (Memory.host.link config ⟨current :: beneath, extra⟩ b) m) := by
  have meant := current.wish_spec config (beneath.length + 1) b
  cases wish : current.wish config (beneath.length + 1) b with
  | refuse r =>
    have quiet : LinkOutcome config m extra current beneath b (.ok (b.refuse r), m.note []) :=
      .refused r [] (by simp)
    rwa [Memory.note_nil, ← exec_link_refuse wish] at quiet
  | again groupId =>
    rw [wish] at meant
    obtain ⟨options, wanted, held⟩ := meant
    rw [exec_link_again wish]
    exact .again options groupId wanted held
  | visit options flowId =>
    rw [wish] at meant
    obtain ⟨wanted, named⟩ := meant
    have quiet := Memory.reading_closes current.isPreview flowId
    generalize ran : exec (Memory.host.link config ⟨current :: beneath, extra⟩ b) m = r
    cases link_visit wish ran with
    | unanswered fault => exact .aborted _ _ quiet
    | undecoded f => exact .aborted f _ quiet
    | refused found r => exact .refused r _ quiet
    | unrecorded linked w fault =>
      exact .aborted _ _ (List.forall_mem_cons.mpr
        ⟨quiet _ List.mem_cons_self, List.forall_mem_singleton.mpr rfl⟩)
    | pushed linked groupId p known held made =>
      exact .other options flowId linked groupId p wanted named known held made

end Dialogue
