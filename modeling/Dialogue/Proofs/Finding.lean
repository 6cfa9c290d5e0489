import Mathlib.Data.List.Induction
import Dialogue.Proofs.Deciding
import Dialogue.Proofs.Isolation

/-!
# What sessions find under an id

A preview finds the last draft that was stored with the id asked for, and a live session the last
definition that was published for it, whatever id that one has itself; neither finds what was stored
for the other. Either way the flow that is found has the id that was asked for (`found_by_id`).
Hence a link into a flow from one of its own frames is always told to be one, and looks nothing up.
-/

namespace Dialogue

/-- A definition that is put into the stores: as a draft, or as what is published for a flow. -/
inductive Deposit where
  | draft (d : Definition)
  | published (flowId : String) (d : Definition)

/-- Whether a deposit is a draft. -/
def Deposit.isDraft : Deposit → Bool
  | .draft _ => true
  | .published _ _ => false

/-- The definition that sessions of a mode have of a deposit under an id. -/
inductive Deposit.Serves : Deposit → Bool → String → Definition → Prop
  | draft (d : Definition) : Serves (.draft d) true d.id d
  | published (flowId : String) (d : Definition) : Serves (.published flowId d) false flowId d

/-- The last of some deposits that serves sessions of a mode under an id. -/
def LastDeposit (deposits : List Deposit) (preview : Bool) (flowId : String) (d : Definition) :
    Prop :=
  ∃ before deposit after, deposits = before ++ deposit :: after ∧
    deposit.Serves preview flowId d ∧ ∀ later ∈ after, ∀ d', ¬ later.Serves preview flowId d'

namespace Memory

/-- Stores a deposit. -/
def deposit (m : Memory) : Deposit → Memory
  | .draft d => m.insertDraft d
  | .published flowId d => m.publish flowId d

/-- The stores with some deposits and no other definitions. -/
def stocked (m : Memory) (deposits : List Deposit) : Memory :=
  deposits.foldl deposit { m with drafts := .empty, published := .empty }

end Memory

/-- From a frame every link to a flow is one into the active flow: it is refused or pushes another
frame for the flow, makes no request, and goes as a link that says that it leads into the active
flow. -/
def Frame.Recurses (f : Frame) (flowId : String) : Prop :=
  ∀ (config : Config) (beneath : List Frame) (extra : Entries) (b : Block) (options : LinkOptions)
    (m : Memory), b.linkOptions = .ok options → options.flow? = some flowId →
    ((∃ r, exec (Memory.host.link config ⟨f :: beneath, extra⟩ b) m = (.ok (b.refuse r), m)) ∨
      ∃ groupId, exec (Memory.host.link config ⟨f :: beneath, extra⟩ b) m =
        (.ok ((f.pushAgain b groupId m.ids).reply beneath extra),
          m.withIds (f.pushAgain b groupId m.ids).ids)) ∧
    ∀ other, ({ b with options := other } : Block).linkOptions =
        .ok { options with flowId := some LinkOptions.currentFlow } →
      exec (Memory.host.link config ⟨f :: beneath, extra⟩ { b with options := other }) m =
        exec (Memory.host.link config ⟨f :: beneath, extra⟩ b) m

/-! ### Deposits -/

section

variable {m m' : Memory} {op : Deposit} {deposits others : List Deposit} {preview : Bool}
  {flowId : String} {d : Definition}

theorem Deposit.Serves.isDraft (h : op.Serves preview flowId d) : op.isDraft = preview := by
  cases h <;> rfl

theorem Deposit.Serves.published_for {id : String} {d' : Definition}
    (h : (Deposit.published id d').Serves preview flowId d) : id = flowId := by
  cases h
  rfl

theorem Deposit.Serves.draft_id (h : op.Serves true flowId d) : d.id = flowId := by
  cases h
  rfl

namespace Memory

/-- What has been deposited is found. -/
theorem definition?_deposit (m : Memory) (h : op.Serves preview flowId d) :
    (m.deposit op).definition? preview flowId = some d := by
  cases h with
  | draft => exact m.drafts.get?_put_self d.id d
  | published => exact m.published.get?_put_self flowId d

/-- A deposit that does not serve changes nothing of what is found. -/
theorem definition?_deposit_of_not (m : Memory) (h : ∀ d, ¬ op.Serves preview flowId d) :
    (m.deposit op).definition? preview flowId = m.definition? preview flowId := by
  cases op with
  | draft d =>
    cases preview with
    | true =>
      have other : d.id ≠ flowId := fun same => h d (same ▸ .draft d)
      exact m.drafts.get?_put_of_ne d other
    | false => rfl
  | published id d =>
    cases preview with
    | true => rfl
    | false =>
      have other : id ≠ flowId := fun same => h d (same ▸ .published id d)
      exact m.published.get?_put_of_ne d other

theorem definition?_deposits_of_not (m : Memory)
    (h : ∀ op ∈ deposits, ∀ d, ¬ op.Serves preview flowId d) :
    (deposits.foldl deposit m).definition? preview flowId = m.definition? preview flowId := by
  induction deposits generalizing m with
  | nil => rfl
  | cons op deposits ih =>
    obtain ⟨own, h⟩ := List.forall_mem_cons.mp h
    rw [List.foldl_cons, ih _ h, m.definition?_deposit_of_not own]

/-- The last deposit that serves is found. -/
theorem definition?_stocked (m : Memory) (h : LastDeposit deposits preview flowId d) :
    (m.stocked deposits).definition? preview flowId = some d := by
  obtain ⟨before, op, after, rfl, serves, last⟩ := h
  rw [stocked, List.foldl_append, List.foldl_cons, definition?_deposits_of_not _ last,
    definition?_deposit _ serves]

/-- If no deposit serves nothing is found. -/
theorem definition?_stocked_of_not (m : Memory)
    (h : ∀ op ∈ deposits, ∀ d, ¬ op.Serves preview flowId d) :
    (m.stocked deposits).definition? preview flowId = none := by
  rw [stocked, definition?_deposits_of_not _ h]
  cases preview <;> rfl

theorem definition?_deposit_congr (op : Deposit)
    (same : m.definition? preview flowId = m'.definition? preview flowId) :
    (m.deposit op).definition? preview flowId = (m'.deposit op).definition? preview flowId := by
  by_cases serves : ∃ d, op.Serves preview flowId d
  · obtain ⟨d, serves⟩ := serves
    rw [m.definition?_deposit serves, m'.definition?_deposit serves]
  · have not : ∀ d, ¬ op.Serves preview flowId d := fun d h => serves ⟨d, h⟩
    rw [m.definition?_deposit_of_not not, m'.definition?_deposit_of_not not, same]

/-- The deposits for sessions of the other mode may as well not have been made. -/
theorem definition?_deposits_filter
    (same : m.definition? preview flowId = m'.definition? preview flowId) :
    (deposits.foldl deposit m).definition? preview flowId =
      ((deposits.filter (·.isDraft == preview)).foldl deposit m').definition? preview flowId := by
  induction deposits generalizing m m' with
  | nil => exact same
  | cons op deposits ih =>
    by_cases mode : op.isDraft = preview
    · rw [List.filter_cons_of_pos (by simpa using mode)]
      exact ih (definition?_deposit_congr op same)
    · have not : ∀ d, ¬ op.Serves preview flowId d := fun d h => mode h.isDraft
      rw [List.filter_cons_of_neg (by simpa using mode)]
      exact ih ((m.definition?_deposit_of_not not).trans same)

theorem definition?_stocked_congr (m : Memory)
    (same : others.filter (·.isDraft == preview) = deposits.filter (·.isDraft == preview))
    (flowId : String) : (m.stocked others).definition? preview flowId =
      (m.stocked deposits).definition? preview flowId := by
  rw [stocked, stocked, definition?_deposits_filter rfl, same, ← definition?_deposits_filter rfl]

/-- Deposits leave all but the definitions alone. -/
theorem stocked_eq (m : Memory) (deposits : List Deposit) : ∃ drafts published,
    m.stocked deposits = { m with drafts := drafts, published := published } := by
  induction deposits using List.reverseRecOn with
  | nil => exact ⟨_, _, rfl⟩
  | append_singleton deposits op ih =>
    obtain ⟨drafts, published, same⟩ := ih
    rw [stocked, List.foldl_append, ← stocked, same]
    cases op <;> exact ⟨_, _, rfl⟩

theorem stocked_outage (m : Memory) (deposits : List Deposit) :
    (m.stocked deposits).outage (m.stocked deposits).journal = m.outage m.journal := by
  obtain ⟨_, _, same⟩ := m.stocked_eq deposits
  rw [same]

end Memory

/-- One of the deposits that serve is the last. -/
theorem exists_lastDeposit (h : ∃ op ∈ deposits, ∃ d, op.Serves preview flowId d) :
    ∃ d, LastDeposit deposits preview flowId d := by
  induction deposits using List.reverseRecOn with
  | nil => simp at h
  | append_singleton deposits last ih =>
    by_cases serves : ∃ d, last.Serves preview flowId d
    · obtain ⟨d, serves⟩ := serves
      exact ⟨d, deposits, last, [], rfl, serves, nofun⟩
    · obtain ⟨op, hop, serving⟩ := h
      have before : op ∈ deposits := by
        rcases List.mem_append.mp hop with hop | hop
        · exact hop
        · rw [List.mem_singleton.mp hop] at serving
          exact absurd serving serves
      obtain ⟨d, front, first, after, rfl, own, rest⟩ := ih ⟨op, before, serving⟩
      refine ⟨d, front, first, after ++ [last], by simp, own, fun later hl d' => ?_⟩
      rcases List.mem_append.mp hl with hl | hl
      · exact rest later hl d'
      · rw [List.mem_singleton.mp hl]
        exact fun serving => serves ⟨d', serving⟩

/-- What is found is the last deposit that serves, or nothing. -/
theorem Memory.definition?_stocked_iff {m : Memory} :
    (m.stocked deposits).definition? preview flowId = some d ↔
      LastDeposit deposits preview flowId d := by
  refine ⟨fun found => ?_, m.definition?_stocked⟩
  by_cases serves : ∃ op ∈ deposits, ∃ d, op.Serves preview flowId d
  · obtain ⟨d', last⟩ := exists_lastDeposit serves
    rw [m.definition?_stocked last] at found
    rwa [← Option.some.inj found]
  · rw [m.definition?_stocked_of_not fun op hop d h => serves ⟨op, hop, d, h⟩] at found
    cases found

theorem Memory.found_stocked_none {m : Memory} :
    (m.stocked deposits).found preview flowId = .ok none ↔
      ∀ op ∈ deposits, ∀ d, ¬ op.Serves preview flowId d := by
  unfold found
  constructor
  · intro nothing op hop d serves
    obtain ⟨d', last⟩ := exists_lastDeposit ⟨op, hop, d, serves⟩
    rw [m.definition?_stocked last] at nothing
    obtain ⟨f, -, same⟩ := map_eq_ok nothing
    cases same
  · intro nothing
    rw [m.definition?_stocked_of_not nothing]

/-- A definition is decoded under the id that it is asked for. -/
theorem LastDeposit.id_eq (stored : LastDeposit deposits preview flowId d) :
    (if preview then none else some flowId : Option String).getD d.id = flowId := by
  obtain ⟨-, op, -, -, serves, -⟩ := stored
  cases preview with
  | true => exact serves.draft_id
  | false => rfl

theorem Memory.found_stocked {m : Memory} (stored : LastDeposit deposits preview flowId d) :
    (m.stocked deposits).found preview flowId =
      some <$> d.toFlow (if preview then none else some flowId) := by
  rw [found, m.definition?_stocked stored]

/-- A flow that is found has the id that was asked for. -/
theorem Memory.found_stocked_id {f : Flow}
    (h : (m.stocked deposits).found preview flowId = .ok (some f)) : f.id = flowId := by
  cases stored : (m.stocked deposits).definition? preview flowId with
  | none =>
    rw [found, stored] at h
    cases h
  | some d =>
    have last := definition?_stocked_iff.mp stored
    rw [found_stocked last] at h
    obtain ⟨g, decoded, same⟩ := map_eq_ok h
    obtain rfl := Option.some.inj same
    exact (Definition.toFlow_eq_ok.mp decoded).1.trans last.id_eq

end

/-! ### Links into the active flow -/

section

variable {config : Config} {current : Frame} {beneath : List Frame} {extra : Entries} {b : Block}
  {options : LinkOptions} {m : Memory}

/-- A link that names the active flow is told to lead into it. -/
theorem wish_own (depth : Nat) (readable : b.linkOptions = .ok options)
    (named : options.flow? = some current.flow.id) :
    (∃ r, current.wish config depth b = .refuse r) ∨
      ∃ groupId, current.wish config depth b = .again groupId := by
  have own : options.targetsActive current.flow.id = true :=
    (LinkOptions.targetsActive_iff named).mpr (.inr rfl)
  unfold Frame.wish
  simp only [readable, named, own, if_true]
  split
  · exact .inl ⟨_, rfl⟩
  · cases current.flow.existing options.group? with
    | none => exact .inl ⟨_, rfl⟩
    | some groupId => exact .inr ⟨groupId, rfl⟩

/-- Blocks wish the same in the active flow whether they name it by its id or by the name that every
active flow has. -/
theorem wish_renamed (config : Config) (depth : Nat) {other : Option Json}
    (readable : b.linkOptions = .ok options)
    (named : options.flow? = some current.flow.id)
    (renamed : ({ b with options := other } : Block).linkOptions =
      .ok { options with flowId := some LinkOptions.currentFlow }) :
    current.wish config depth { b with options := other } = current.wish config depth b := by
  let options' : LinkOptions := { options with flowId := some LinkOptions.currentFlow }
  have named' : options'.flow? = some LinkOptions.currentFlow := rfl
  have own : options.targetsActive current.flow.id = true :=
    (LinkOptions.targetsActive_iff named).mpr (.inr rfl)
  have own' : options'.targetsActive current.flow.id = true :=
    (LinkOptions.targetsActive_iff named').mpr (.inl rfl)
  unfold Frame.wish
  rw [renamed, readable]
  simp only [named, named', own, own', options']
  rfl

/-- A frame recurses into its own flow. -/
theorem Frame.recurses_own (f : Frame) : f.Recurses f.flow.id := by
  intro config beneath extra b options m readable named
  rcases wish_own (beneath.length + 1) readable named with ⟨r, wish⟩ | ⟨groupId, wish⟩
  · refine ⟨.inl ⟨r, exec_link_refuse wish⟩, fun other renamed => ?_⟩
    have same := wish_renamed config (beneath.length + 1) readable named renamed
    rw [exec_link_refuse wish, exec_link_refuse (same.trans wish)]
    rfl
  · refine ⟨.inr ⟨groupId, exec_link_again wish⟩, fun other renamed => ?_⟩
    have same := wish_renamed config (beneath.length + 1) readable named renamed
    rw [exec_link_again wish, exec_link_again (same.trans wish)]
    rfl

/-- A link to another flow wishes to visit it, if it pushes a frame. -/
theorem wish_across {flowId : String} {reply : Reply} {m' : Memory}
    (readable : b.linkOptions = .ok options) (named : options.flow? = some flowId)
    (across : ¬ (flowId = LinkOptions.currentFlow ∨ flowId = current.flow.id))
    (ran : exec (Memory.host.link config ⟨current :: beneath, extra⟩ b) m = (.ok reply, m'))
    (pushed : reply.session ≠ none) :
    current.wish config (beneath.length + 1) b = .visit options flowId := by
  obtain ⟨wanted, nonempty⟩ := LinkOptions.flow?_eq_some.mp named
  have leads : b.Leads config (beneath.length + 1) options flowId :=
    ⟨readable, wanted, nonempty, room_of_push ran pushed⟩
  rw [leads.wish current, if_neg across]

end

/-- What sessions find under an id, in stores with nothing but some deposits. A fetch is one
request. It finds nothing if and only if no deposit serves sessions of the mode under the id; else
it finds the flow that the last such deposit stands for, or what is wrong with that one. Deposits
for sessions of the other mode make no difference. A flow that is found has the id that was asked
for. Hence, once a link to another flow has pushed a frame, every link to this flow from the frame,
whatever has become of it since, is one into the active flow. -/
theorem found_by_id (m : Memory) (deposits : List Deposit) :
    (∀ (s : Session) (flowId : String),
      m.outage m.journal (Memory.reading s.isPreview flowId) = none →
      ∃ found, exec (Memory.host.fetch s.isPreview flowId) (m.stocked deposits) =
          (found, (m.stocked deposits).note [Memory.reading s.isPreview flowId]) ∧
        (found = .ok none ↔ ∀ op ∈ deposits, ∀ d, ¬ op.Serves s.isPreview flowId d) ∧
        (∀ d, LastDeposit deposits s.isPreview flowId d →
          found = some <$> d.toFlow (if s.isPreview then none else some flowId)) ∧
        (∀ f, found = .ok (some f) → f.id = flowId) ∧
        ∀ others : List Deposit, others.filter (·.isDraft == s.isPreview) =
            deposits.filter (·.isDraft == s.isPreview) →
          (exec (Memory.host.fetch s.isPreview flowId) (m.stocked others)).1 = found) ∧
    ∀ (config : Config) (current : Frame) (beneath : List Frame) (extra : Entries) (b : Block)
      (options : LinkOptions) (flowId : String) (reply : Reply) (s' : Session) (m' : Memory),
      b.linkOptions = .ok options → options.flow? = some flowId →
      ¬ (flowId = LinkOptions.currentFlow ∨ flowId = current.flow.id) →
      exec (Memory.host.link config ⟨current :: beneath, extra⟩ b) (m.stocked deposits) =
        (.ok reply, m') → reply.session = some s' →
      ∃ top under, s'.frames = top :: under ∧ top.flow.id = flowId ∧
        ∀ inner : Frame, top.Keeps inner → inner.Recurses flowId := by
  refine ⟨fun s flowId answers => ?_, ?_⟩
  · have fetched (ops : List Deposit) := Memory.exec_fetch s.isPreview flowId (m.stocked ops)
    simp only [Memory.stocked_outage, answers] at fetched
    refine ⟨_, fetched deposits, Memory.found_stocked_none, fun _ => Memory.found_stocked,
      fun f => Memory.found_stocked_id, fun others same => ?_⟩
    rw [fetched, Memory.found, m.definition?_stocked_congr same, ← Memory.found]
  · intro config current beneath extra b options flowId reply s' m' readable named across ran pushed
    have wish := wish_across readable named across ran (pushed ▸ Option.some_ne_none s')
    obtain ⟨linked, groupId, p, found, -, rfl, -, rfl⟩ := link_visited wish ran pushed
    have id : linked.id = flowId := Memory.found_stocked_id found
    refine ⟨_, _, rfl, id, fun inner keeps => ?_⟩
    have same : inner.flow.id = flowId := keeps.flowId.trans id
    exact same ▸ inner.recurses_own

namespace Sample

/-- A survey that is published twice and drafted in between. -/
def deposits : List Deposit :=
  [.published "survey" { questions with groups := .null },
    .draft { questions with id := "survey", groups := .null }, .published "survey" questions,
    .published "audit" { questions with id := "survey", groups := .null }]

theorem deposits_last : LastDeposit deposits false "survey" questions := by
  refine ⟨deposits.take 2, _, deposits.drop 3, rfl, .published "survey" questions, ?_⟩
  rintro later hl d' serves
  obtain rfl := List.mem_singleton.mp hl
  exact absurd serves.published_for (by decide)

end Sample

/-- The survey is found as it was published last, and once it has been joined, links to it from its
own frame are links into the active flow. -/
theorem found_by_id_sample :
    (exec (Memory.host.fetch false "survey")
        ((Memory.empty Sample.ids).stocked Sample.deposits)).1 =
      .ok (some ⟨"survey", none, [⟨"q", "", []⟩], [], [], [], .empty, none⟩) ∧
    ∃ reply s' m' top under, exec (Memory.host.link .default ⟨[Sample.first], []⟩ Sample.join)
        ((Memory.empty Sample.ids).stocked Sample.deposits) = (.ok reply, m') ∧
      reply.session = some s' ∧ s'.frames = top :: under ∧ top.Recurses "survey" := by
  obtain ⟨fetches, links⟩ := found_by_id (.empty Sample.ids) Sample.deposits
  constructor
  · obtain ⟨found, ran, -, last, -⟩ := fetches ⟨[Sample.first], []⟩ "survey" rfl
    have same := last _ Sample.deposits_last
    have live : Session.isPreview ⟨[Sample.first], []⟩ = false := rfl
    rw [live] at ran same
    rw [ran, same]
    rfl
  · obtain ⟨reply, s', m', ran, pushed⟩ : ∃ reply s' m',
        exec (Memory.host.link .default ⟨[Sample.first], []⟩ Sample.join)
          ((Memory.empty Sample.ids).stocked Sample.deposits) = (.ok reply, m') ∧
        reply.session = some s' := ⟨_, _, _, rfl, rfl⟩
    obtain ⟨top, under, frames, -, recurses⟩ := links .default Sample.first [] [] Sample.join
      ⟨some "survey", some "q", some true⟩ "survey" reply s' m' rfl rfl (by decide) ran pushed
    exact ⟨reply, s', m', top, under, ran, pushed, frames, recurses top (.refl top)⟩

end Dialogue
