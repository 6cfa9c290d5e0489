import Dialogue.Interpreter
import Dialogue.Proofs.Engine

/-!
# The rounds of a run

A run of the interpreter goes round a loop: an edge is followed to a group, and the blocks of the
group are executed up to the next edge. `Rounds` tells which rounds lead from one point of the loop
to another. A run that ends well consists of rounds behind which there is no group left to go to
(`rounds_of_finished`); behind any rounds the run goes on as one from the point that they lead to
(`Rounds.run`).
-/

namespace Dialogue

/-- A point of the loop: a session, the edge to follow from there, and the stores. -/
structure Point where
  session : Session
  edgeId : Option String
  memory : Memory

/-- A group that is visited: the edge followed to it, the session as the group is entered, and what
comes of its blocks. -/
structure Round where
  edgeId : Option String
  group : Group
  entered : Session
  pass : Pass

/-- What happens in a round. -/
def Round.events (v : Round) : List RunEvent :=
  .entered v.group v.entered.depth v.entered.activeFlowId :: v.pass.events

/-- What comes of executing some blocks. -/
def Session.blocks (config : Config) (s : Session) (blocks : List Block) (m : Memory) :
    Pass × Memory :=
  (Registry.default.runBlocks Memory.host config blocks s).run m

/-- What comes of a run from a point, through so many groups at most. -/
def Point.run (config : Config) (groups : Nat) (p : Point) : Run × Memory :=
  (Registry.default.run Memory.host config groups p.session p.edgeId).run p.memory

/-- The events of a run come behind others. -/
def Run.behind (r : Run) (events : List RunEvent) : Run := { r with events := events ++ r.events }

/-- The rounds that lead from a point of the loop to another. -/
inductive Rounds (config : Config) : Point → List Round → Point → Prop
  | here (p : Point) : Rounds config p [] p
  | visit {p p' : Point} {group : Group} {entered : Session} {m m' : Memory} {pass : Pass}
    {edgeId : Option String} {rounds : List Round}
    (next : exec (Memory.host.next p.session p.edgeId) p.memory = (.ok ⟨some group, entered⟩, m))
    (blocks : entered.blocks config group.blocks m = (pass, m'))
    (outcome : pass.outcome = .ok edgeId)
    (rest : Rounds config ⟨pass.session, edgeId, m'⟩ rounds p') :
    Rounds config p (⟨p.edgeId, group, entered, pass⟩ :: rounds) p'

variable {config : Config}

theorem run_run {σ α : Type} (x : Engine σ α) (w : σ) : x.run.run w = exec x w := rfl

theorem run_bind {σ α β : Type} (x : StateM σ α) (f : α → StateM σ β) (w : σ) :
    (x >>= f).run w = (f (x.run w).1).run (x.run w).2 := rfl

theorem Session.blocks_nil (s : Session) (m : Memory) :
    s.blocks config [] m = (⟨[], s, .ok none⟩, m) := rfl

theorem Session.blocks_cons (s : Session) (b : Block) (blocks : List Block) (m : Memory) :
    s.blocks config (b :: blocks) m =
      match exec (Registry.default.execute Memory.host config s b) m with
      | (.error f, m') => (⟨[.reached s.activeFlowId b], s, .error f⟩, m')
      | (.ok reply, m') =>
        match reply.outgoingEdgeId with
        | some edgeId => (⟨[.reached s.activeFlowId b, .answered b reply], reply.session.getD s,
            .ok (some edgeId)⟩, m')
        | none =>
          let r := (reply.session.getD s).blocks config blocks m'
          ({ r.1 with events := .reached s.activeFlowId b :: .answered b reply :: r.1.events },
            r.2) := by
  unfold Session.blocks
  rw [Registry.runBlocks, run_bind, run_run]
  rcases exec (Registry.default.execute Memory.host config s b) m with
    ⟨f | ⟨edgeId | edgeId, session, logs⟩, m'⟩ <;> rfl

theorem Point.run_zero (p : Point) :
    p.run config 0 = (⟨[], p.session, .interrupted⟩, p.memory) := rfl

/-- A run goes on as one from where its next group leads. -/
theorem Point.run_succ (n : Nat) (p : Point) :
    p.run config (n + 1) =
      match exec (Memory.host.next p.session p.edgeId) p.memory with
      | (.error f, m) => (⟨[], p.session, .aborted f⟩, m)
      | (.ok ⟨none, s⟩, m) => (⟨[], s, .finished⟩, m)
      | (.ok ⟨some group, s⟩, m) =>
        let r := s.blocks config group.blocks m
        match r.1.outcome with
        | .error f => (⟨.entered group s.depth s.activeFlowId :: r.1.events, r.1.session,
            .aborted f⟩, r.2)
        | .ok edgeId =>
          let rest := Point.run config n ⟨r.1.session, edgeId, r.2⟩
          (rest.1.behind (.entered group s.depth s.activeFlowId :: r.1.events), rest.2) := by
  unfold run
  rw [Registry.run, run_bind, run_run]
  rcases exec (Memory.host.next p.session p.edgeId) p.memory with ⟨f | ⟨group | group, s⟩, m⟩
  · rfl
  · rfl
  · refine (run_bind _ _ _).trans ?_
    dsimp only [Session.blocks]
    rcases (Registry.default.runBlocks Memory.host config group.blocks s).run m with
      ⟨⟨events, session, f | edgeId⟩, m'⟩ <;> rfl

/-- What becomes of a run with its next group, given the bound on the number of groups behind that.
-/
inductive Point.Fate (config : Config) (p : Point) : (ℕ → Run × Memory) → Prop
  /-- The edge cannot be followed. -/
  | stuck (f : Fault) (m : Memory)
    (next : exec (Memory.host.next p.session p.edgeId) p.memory = (.error f, m)) :
    Point.Fate config p fun _ => (⟨[], p.session, .aborted f⟩, m)
  /-- No group is left to go to. -/
  | finished (s : Session) (m : Memory)
    (next : exec (Memory.host.next p.session p.edgeId) p.memory = (.ok ⟨none, s⟩, m)) :
    Point.Fate config p fun _ => (⟨[], s, .finished⟩, m)
  /-- A block of the group fails. -/
  | failed (group : Group) (s : Session) (m : Memory) (pass : Pass) (m' : Memory) (f : Fault)
    (next : exec (Memory.host.next p.session p.edgeId) p.memory = (.ok ⟨some group, s⟩, m))
    (blocks : s.blocks config group.blocks m = (pass, m')) (outcome : pass.outcome = .error f) :
    Point.Fate config p fun _ =>
      (⟨.entered group s.depth s.activeFlowId :: pass.events, pass.session, .aborted f⟩, m')
  /-- The run goes on from where the group leads. -/
  | visited (group : Group) (s : Session) (m : Memory) (pass : Pass) (m' : Memory)
    (edgeId : Option String)
    (next : exec (Memory.host.next p.session p.edgeId) p.memory = (.ok ⟨some group, s⟩, m))
    (blocks : s.blocks config group.blocks m = (pass, m')) (outcome : pass.outcome = .ok edgeId) :
    Point.Fate config p fun n =>
      ((Point.run config n ⟨pass.session, edgeId, m'⟩).1.behind
        (.entered group s.depth s.activeFlowId :: pass.events),
        (Point.run config n ⟨pass.session, edgeId, m'⟩).2)

theorem Point.fate (config : Config) (p : Point) :
    ∃ run, p.Fate config run ∧ ∀ n, p.run config (n + 1) = run n := by
  refine ⟨fun n => p.run config (n + 1), ?_, fun _ => rfl⟩
  simp only [run_succ]
  rcases next : exec (Memory.host.next p.session p.edgeId) p.memory with ⟨f | ⟨_ | group, s⟩, m⟩
  · exact .stuck f m next
  · exact .finished s m next
  · rcases blocks : s.blocks config group.blocks m with ⟨pass, m'⟩
    cases outcome : pass.outcome with
    | error f =>
      simp only [blocks, outcome]
      exact .failed group s m pass m' f next blocks outcome
    | ok edgeId =>
      simp only [blocks, outcome]
      exact .visited group s m pass m' edgeId next blocks outcome

/-- Runs from points with the same next group are the same. -/
theorem Point.run_congr {p q : Point} {next : Next} {m : Memory} (n : Nat)
    (hp : exec (Memory.host.next p.session p.edgeId) p.memory = (.ok next, m))
    (hq : exec (Memory.host.next q.session q.edgeId) q.memory = (.ok next, m)) :
    p.run config (n + 1) = q.run config (n + 1) := by
  obtain ⟨group, s⟩ := next
  rw [run_succ, run_succ, hp, hq]
  cases group <;> rfl

/-- A run goes through rounds, and on as one from the point that they lead to. -/
theorem Rounds.run {p p' : Point} {rounds : List Round} (h : Rounds config p rounds p')
    (more : Nat) :
    p.run config (rounds.length + more) =
      ((p'.run config more).1.behind (rounds.flatMap Round.events), (p'.run config more).2) := by
  induction h with
  | here p => simp [Run.behind]
  | visit next blocks outcome rest ih =>
    rw [List.length_cons, Nat.add_right_comm, Point.run_succ, next]
    simp only [blocks, outcome, ih]
    simp [Run.behind, Round.events]

/-- A run that ends well goes through rounds to a point where no group is left to go to. -/
theorem rounds_of_finished : ∀ (n : Nat) (p : Point) {r : Run} {m : Memory},
    p.run config n = (r, m) → r.ending = .finished →
    ∃ rounds p' s, Rounds config p rounds p' ∧
      exec (Memory.host.next p'.session p'.edgeId) p'.memory = (.ok ⟨none, s⟩, m) ∧
      r = ⟨rounds.flatMap Round.events, s, .finished⟩
  | 0, p, r, m, ran, finished => by
    obtain ⟨rfl, -⟩ : (⟨[], p.session, .interrupted⟩ : Run) = r ∧ _ := Prod.mk.inj ran
    contradiction
  | n + 1, p, r, m, ran, finished => by
    obtain ⟨run, fate, same⟩ := p.fate config
    rw [same] at ran
    cases fate with
    | stuck f m' next =>
      obtain ⟨rfl, -⟩ := Prod.mk.inj ran
      contradiction
    | finished s m' next =>
      obtain ⟨rfl, rfl⟩ := Prod.mk.inj ran
      exact ⟨[], p, s, .here p, next, rfl⟩
    | failed group s m' pass m'' f next blocks outcome =>
      obtain ⟨rfl, -⟩ := Prod.mk.inj ran
      contradiction
    | visited group s m' pass m'' edgeId next blocks outcome =>
      rcases rest : Point.run config n ⟨pass.session, edgeId, m''⟩ with ⟨r', m₁⟩
      simp only [rest] at ran
      obtain ⟨rfl, rfl⟩ := Prod.mk.inj ran
      obtain ⟨rounds, p', s', there, last, rfl⟩ := rounds_of_finished n _ rest finished
      refine ⟨⟨p.edgeId, group, s, pass⟩ :: rounds, p', s', .visit next blocks outcome there, last,
        ?_⟩
      simp [Run.behind, Round.events]

end Dialogue
