import Dialogue.Store.Host
import Dialogue.Store.Ids
import Dialogue.Store.Table

/-!
# Stores in memory

`Memory` holds drafts under the id of their definition, published definitions under the id they were
published for, the records of results, and a source of ids. Every request is noted in a journal. A
request may be made to fail, which depends on the requests before it; a failing request changes
nothing but the journal.
-/

namespace Dialogue

/-- A request, as the journal notes it. -/
inductive Call where
  | getDraft (flowId : String)
  | getPublished (flowId : String)
  | ensureResult (resultId : String)
  | upsertResult (resultId : String)
  deriving DecidableEq, Repr

/-- Which requests fail, given the journal so far. -/
abbrev Outage := List Call → Call → Option StoreFault

namespace Outage

/-- Nothing fails. -/
def none : Outage := fun _ _ => Option.none

/-- Requests for definitions fail, all of them or those for one flow. -/
def ofDefinitions (fault : StoreFault) (only : Option String) : Outage
  | _, .getDraft id => if only.all (· == id) then some fault else Option.none
  | _, .getPublished id => if only.all (· == id) then some fault else Option.none
  | _, _ => Option.none

/-- Requests for results fail, all of them or those for one result. -/
def ofResults (fault : StoreFault) (only : Option String) : Outage
  | _, .ensureResult id => if only.all (· == id) then some fault else Option.none
  | _, .upsertResult id => if only.all (· == id) then some fault else Option.none
  | _, _ => Option.none

/-- Requests fail that either outage stops. -/
def both (a b : Outage) : Outage := fun calls call => (a calls call).or (b calls call)

end Outage

/-- Records of results. -/
abbrev Ledger := Table ResultRow

namespace Ledger

/-- Creates a record unless there is one under its id. -/
def ensure (l : Ledger) (w : ResultWrite) : Ledger := l.putNew w.id w.row

/-- Creates or replaces a record. -/
def upsert (l : Ledger) (w : ResultWrite) : Ledger := l.put w.id w.row

end Ledger

/-- Stores in memory. -/
structure Memory where
  drafts : Table Definition
  published : Table Definition
  results : Ledger
  ids : IdSource
  outage : Outage
  journal : List Call

namespace Memory

/-- Empty stores with a source of ids. -/
def empty (ids : IdSource) : Memory := ⟨.empty, .empty, .empty, ids, .none, []⟩

/-- Stores a draft under its own id. -/
def insertDraft (m : Memory) (d : Definition) : Memory := { m with drafts := m.drafts.put d.id d }

/-- Publishes a definition for a flow. -/
def publish (m : Memory) (flowId : String) (d : Definition) : Memory :=
  { m with published := m.published.put flowId d }

/-- Notes a request and answers it unless it is made to fail. -/
def answer {α : Type} (call : Call) (body : Memory → α × Memory) : Request Memory α := fun m =>
  let noted := { m with journal := m.journal ++ [call] }
  match m.outage m.journal call with
  | some fault => (.error fault, noted)
  | none =>
    let (a, m') := body noted
    (.ok a, m')

/-- The stores as a host. -/
def host : Host Memory where
  draft flowId := answer (.getDraft flowId) fun m => (m.drafts.get? flowId, m)
  published flowId := answer (.getPublished flowId) fun m => (m.published.get? flowId, m)
  ensure w := answer (.ensureResult w.id) fun m =>
    ((), { m with results := Ledger.ensure m.results w })
  upsert w := answer (.upsertResult w.id) fun m =>
    ((), { m with results := Ledger.upsert m.results w })
  freshId := fun m =>
    let (id, ids) := m.ids.next
    (id, { m with ids := ids })

end Memory

end Dialogue
