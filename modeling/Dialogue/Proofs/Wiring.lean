import Mathlib.Data.List.Chain
import Dialogue.Proofs.Keeping

/-!
# Edges that lead somewhere

A wired flow has no loose edges: each edge leads to one of its groups, no two edges share an id, and
the edges that its blocks answer are there (`Flow.Wired`). If all flows that a session starts from
are wired, and only blocks of the active flow are executed, then all flows of the stack stay wired,
and each frame but the deepest returns through an edge of the frame beneath it (`World.Wired`).
Hence a session comes to its end only with a single frame left (`stack_wired`).
-/

namespace Dialogue

/-- The flow has an edge under an id. -/
def Flow.HasEdge (f : Flow) (id : String) : Prop := ∃ e ∈ f.edges, e.id = id

/-- A flow without loose edges, of which no id to come names one. -/
structure Flow.Wired (ids : IdSource) (f : Flow) : Prop where
  closed : f.Closed
  distinct : (f.edges.map (·.id)).Nodup
  /-- The flow has the edges that its blocks answer. -/
  served : ∀ g ∈ f.groups, ∀ b ∈ g.blocks, ∀ id, b.outgoingEdgeId = some id → f.HasEdge id
  unused : ids.Misses f

/-- A frame returns through an edge of the frame beneath it, if through any. -/
def Frame.Returns (f beneath : Frame) : Prop :=
  ∀ id, f.returnEdgeId = some id → beneath.flow.HasEdge id

/-- All flows are wired, and every return edge is there. -/
structure World.Wired (w : World) : Prop extends w.Upholds Flow.Wired where
  returns : w.session.frames.IsChain Frame.Returns

/-- What may be done to a session of wired flows: a block to be executed belongs to the active flow,
and definitions to be stored are wired. -/
def World.Admits (w : World) : Act → Prop
  | .move (.execute b) =>
    ∃ current, w.session.active? = some current ∧ ∃ g ∈ current.flow.groups, b ∈ g.blocks
  | .move (.restock drafts published) =>
    Memory.Stores Flow.Wired { w.memory with drafts := drafts, published := published }
  | _ => True

/-- Each of some acts may be done when its turn comes. -/
def World.Admitted (config : Config) : World → List Act → Prop
  | _, [] => True
  | w, a :: acts => w.Admits a ∧ World.Admitted config (w.act config a) acts

/-! ### Wired flows -/

section

variable {f : Flow} {id : String}

theorem Flow.HasEdge.withEdge (h : f.HasEdge id) (e : Edge) : (f.withEdge e).HasEdge id := by
  obtain ⟨e', he', same⟩ := h
  exact ⟨e', List.mem_append_left _ he', same⟩

theorem Flow.wired_kept : Flow.Kept Flow.Wired where
  onward onward h := ⟨h.closed, h.distinct, h.served, h.unused.onward onward⟩
  withVariables _ h := ⟨h.closed, h.distinct, h.served, h.unused⟩
  withEdge {ids f t} fresh target h := by
    refine ⟨h.closed.withEdge target, ?_, fun g hg b hb id own => ?_, h.unused.withEdge fresh t⟩
    · have other : ids.next.1 ∉ f.edges.map (·.id) := by
        intro old
        obtain ⟨e, he, same⟩ := List.mem_map.mp old
        exact ids.draws_next.not_spent (same ▸ h.unused e he)
      simp only [Flow.withEdge, List.map_append, List.map_cons, List.map_nil]
      exact List.nodup_append.mpr ⟨h.distinct, List.nodup_singleton _, by
        intro a ha b hb
        obtain rfl := List.mem_singleton.mp hb
        rintro rfl
        exact other ha⟩
    · exact (h.served g hg b hb id own).withEdge _

end

/-! ### Return edges -/

section

variable {f g top current parent : Frame} {beneath : List Frame}

/-- The return edge of a frame stays whatever else becomes of it. -/
theorem returns_head (h : (f :: beneath).IsChain Frame.Returns)
    (back : g.returnEdgeId = f.returnEdgeId) : (g :: beneath).IsChain Frame.Returns := by
  refine h.imp_head fun returns id hid => ?_
  exact returns id (back ▸ hid)

/-- A waiting caller has the edge that is returned through, if the block belongs to its flow. -/
theorem Frame.pause_hasEdge {ids : IdSource} (wired : current.flow.Wired ids) {g : Group}
    (held : g ∈ current.flow.groups) {b : Block} (place : b ∈ g.blocks) {id : String}
    (back : (current.pause b ids).returnEdgeId = some id) :
    (current.pause b ids).caller.flow.HasEdge id := by
  cases own : b.outgoingEdgeId with
  | some id' =>
    rw [current.pause_own own] at back ⊢
    obtain rfl := Option.some.inj back
    exact wired.served g held b place id' own
  | none =>
    unfold Frame.pause at back ⊢
    split at back
    · rw [own] at back
      obtain rfl := Option.some.inj back
      exact ⟨_, List.mem_append_right _ List.mem_cons_self, rfl⟩
    · simp [own] at back

theorem returns_push (h : (current :: beneath).IsChain Frame.Returns) (b : Block) (ids : IdSource)
    (returns : top.Returns (current.pause b ids).caller) :
    (top :: (current.pause b ids).caller :: beneath).IsChain Frame.Returns :=
  List.isChain_cons_cons.mpr
    ⟨returns, returns_head h (current.persists_pause b ids).returnEdgeId⟩

theorem returns_pop (h : (top :: parent :: beneath).IsChain Frame.Returns) :
    (parent.resumed top :: beneath).IsChain Frame.Returns :=
  returns_head h.tail (parent.persists_resumed top).returnEdgeId

end

/-! ### Runs -/

namespace World.Wired

variable {w : World} {config : Config}

theorem start {flow : Flow} {resultId : Option String} {m : Memory} (fresh : m.ids.NeverRepeats)
    (root : flow.Wired m.ids) (stored : m.Stores Flow.Wired) :
    (World.start flow resultId m).Wired where
  active := by simp [World.start, Session.start]
  fresh := fresh
  stored := stored
  frames f hf := by
    obtain rfl : f = Frame.root flow resultId := by simpa [World.start, Session.start] using hf
    exact root
  returns := .singleton _

/-- The return edges stay when something is done to the session that it admits. -/
theorem returns_act (h : w.Wired) {a : Act} (admits : w.Admits a) :
    (w.act config a).session.frames.IsChain Frame.Returns := by
  obtain ⟨⟨frames, extra⟩, m⟩ := w
  obtain ⟨current, beneath, rfl⟩ := List.exists_cons_of_ne_nil h.active
  have wired : current.flow.Wired m.ids := h.frames current List.mem_cons_self
  have returns : (current :: beneath).IsChain Frame.Returns := h.returns
  cases a with
  | setAnswers answers => exact returns_head returns rfl
  | move mv =>
    have done := turn config current beneath extra m mv
    simp only [World.act]
    generalize World.move config _ mv = w' at done ⊢
    cases done with
    | idle => exact returns
    | again b options groupId p _ _ pushed =>
      subst pushed
      obtain ⟨_, ⟨⟩, g, held, place⟩ := admits
      exact returns_push returns b m.ids fun id => current.pause_hasEdge wired held place
    | other b options flowId linked groupId p _ _ _ _ pushed =>
      subst pushed
      obtain ⟨_, ⟨⟩, g, held, place⟩ := admits
      exact returns_push returns b m.ids fun id => current.pause_hasEdge wired held place
    | returned edgeId u unwound =>
      subst unwound
      exact unwind_frames (P := (List.IsChain Frame.Returns ·)) (fun _ _ _ h => returns_pop h)
        beneath current edgeId returns
    | stuck => exact returns
    | answered => exact returns_head returns rfl
    | edited => exact returns_head returns rfl
    | restocked => exact returns

theorem act (h : w.Wired) {a : Act} (admits : w.Admits a) : (w.act config a).Wired where
  toUpholds := by
    cases a with
    | move mv =>
      refine h.toUpholds.move Flow.wired_kept config mv ?_
      rintro drafts published rfl
      exact admits
    | setAnswers answers =>
      obtain ⟨⟨frames, extra⟩, m⟩ := w
      obtain ⟨current, beneath, rfl⟩ := List.exists_cons_of_ne_nil h.active
      exact h.toUpholds.head Flow.wired_kept (h.frames current List.mem_cons_self)
  returns := h.returns_act admits

/-- What holds at the start holds behind every run. -/
theorem enact (acts : List Act) (h : w.Wired) (admitted : w.Admitted config acts) :
    (w.enact config acts).Wired := by
  induction acts generalizing w with
  | nil => exact h
  | cons a acts ih =>
    obtain ⟨admits, rest⟩ := admitted
    exact ih (h.act admits) rest

/-- A return that leads nowhere leaves a single frame. -/
theorem next (h : w.Wired) {edgeId : Option String} {n : Next} {m : Memory}
    (ran : exec (Memory.host.next w.session edgeId) w.memory = (.ok n, m))
    (ended : n.group = none) : n.session.depth = 1 := by
  obtain ⟨⟨frames, extra⟩, m₀⟩ := w
  obtain ⟨current, beneath, rfl⟩ := List.exists_cons_of_ne_nil h.active
  obtain ⟨-, rfl⟩ := next_ok ran
  have same : List.Forall₂ Frame.Alike beneath beneath :=
    List.forall₂_same.mpr fun f _ => .refl f
  obtain ⟨c, -, -, last, -⟩ := unwind_above_finished current [] (.refl current) same
    (fun f hf => (h.frames f hf).closed) ended
  exact congrArg List.length last

end World.Wired

/-- The stack of a session stays wired. In every state that a root of a wired flow is brought to,
whatever blocks of the active flow are executed, whatever edges are followed, and whatever the
driver does to the active frame: each edge of a frame leads to a group of its flow, its edges have
different ids, and the return edge of each frame but the deepest is an edge of the frame beneath.
Hence nothing is left to run only when a single frame is left. -/
theorem stack_wired (config : Config) {flow : Flow} (resultId : Option String) {m : Memory}
    (fresh : m.ids.NeverRepeats) (root : flow.Wired m.ids) (stored : m.Stores Flow.Wired)
    {acts : List Act} (admitted : (World.start flow resultId m).Admitted config acts) {w : World}
    (reached : (World.start flow resultId m).enact config acts = w) :
    (∀ f ∈ w.session.frames, f.flow.Closed ∧ (f.flow.edges.map (·.id)).Nodup) ∧
      w.session.frames.IsChain Frame.Returns ∧
      ∀ edgeId n m', exec (Memory.host.next w.session edgeId) w.memory = (.ok n, m') →
        n.group = none → n.session.depth = 1 := by
  have wired : w.Wired := reached ▸ (World.Wired.start fresh root stored).enact acts admitted
  refine ⟨fun f hf => ?_, wired.returns, fun edgeId n m' ran => wired.next ran⟩
  exact ⟨(wired.frames f hf).closed, (wired.frames f hf).distinct⟩

namespace Sample

/-- Joins the survey, and goes on to another group. -/
def tour : Flow :=
  ⟨"tour", none, [⟨"a", "", [join, step]⟩, ⟨"b", "", [fork]⟩], [⟨"on", .unset, ⟨"b", none⟩⟩], [],
    [], ⟨none, []⟩, none⟩

/-- The survey is joined, answered and left, and the tour goes on to its end. -/
def touring : List Act :=
  [.move (.execute join), .setAnswers [⟨"age", "36", none⟩], .move (.next none),
    .move (.execute step), .move (.next (some "on")), .move (.execute fork)]

theorem tour_wired : tour.Wired ids where
  closed := by simp [Flow.Closed, tour, Flow.group?]
  distinct := by decide
  served := by simp [tour, join, fork, link, step, Flow.HasEdge]
  unused := by
    intro e he
    obtain rfl : e = ⟨"on", .unset, ⟨"b", none⟩⟩ := by simpa [tour] using he
    exact ids_spent List.mem_cons_self (by decide)

theorem memory_wired : memory.Stores Flow.Wired :=
  memory_stores fun _ =>
    ⟨by simp [Flow.Closed], List.nodup_nil, by simp, by simp [IdSource.Misses]⟩

end Sample

/-- The tour waits for its fork when its own group has no block left: a return from there ends the
session with the root alone. -/
theorem stack_wired_sample :
    ∃ w, (World.start Sample.tour (some "r") Sample.memory).enact .default Sample.touring = w ∧
      w.session.depth = 2 ∧ w.session.frames.IsChain Frame.Returns ∧
      ∃ n m, exec (Memory.host.next w.session none) w.memory = (.ok n, m) ∧
        n.session.depth = 1 := by
  have admitted : (World.start Sample.tour (some "r") Sample.memory).Admitted .default
      Sample.touring := by
    refine ⟨⟨_, rfl, _, List.mem_cons_self, List.mem_cons_self⟩, trivial, trivial,
      ⟨_, rfl, _, List.mem_cons_self, ?_⟩, trivial,
      ⟨_, rfl, ⟨"b", "", [Sample.fork]⟩, ?_, List.mem_cons_self⟩, trivial⟩
    · exact List.mem_cons_of_mem _ List.mem_cons_self
    · exact List.mem_cons_of_mem _ List.mem_cons_self
  obtain ⟨-, returns, last⟩ := stack_wired .default (some "r") Sample.neverRepeats
    Sample.tour_wired Sample.memory_wired admitted rfl
  exact ⟨_, rfl, rfl, returns, _, _, rfl, last none _ _ rfl rfl⟩

end Dialogue
