import Dialogue.Document
import Dialogue.Interpreter
import Dialogue.Store.Memory
import Dialogue.Text.Quoted

/-!
# The demonstration

A session of two flows that are defined in a document of their own: the first links to the second
and goes on when that one is finished. `Demo.run` performs the session on stores in memory and
answers what is printed, line by line, and the fault that stopped it, if one did.
-/

namespace Dialogue

/-- A failure of a store as a term: its kind with its text. -/
def StoreFault.term : StoreFault → String
  | .unavailable text => String.join ["NotAvailable(", Text.quoted text, ")"]
  | .storage text => String.join ["Storage(", Text.quoted text, ")"]

/-- A fault as a term: its kind with its parts. -/
def Fault.term : Fault → String
  | .store f => String.join ["Store(", f.term, ")"]
  | .invalidFlow flowId defect =>
    String.join ["InvalidFlow \x7b flow_id: ", Text.quoted flowId, ", reason: ",
      Text.quoted defect.message, " \x7d"]
  | .noFrame => "EmptyQueue"
  | .config why => String.join ["Config(", Text.quoted why.message, ")"]

/-- The line that reports a fault. -/
def Fault.report (f : Fault) : String := String.join ["Error: ", f.term]

namespace Demo

/-- The flows of the demonstration, the root first. -/
def flows : String :=
"
- id: welcome
  version: \"6\"
  events:
    - id: ev-welcome
      outgoingEdgeId: e-welcome
  groups:
    - id: g-welcome
      title: Welcome
      blocks:
        - id: w1
          type: text
          options:
            content: \"Hi! A short survey first.\"
        - id: w2
          type: Typebot link
          options:
            typebotId: survey
            mergeResults: false
        - id: w3
          type: text
          options:
            content: \"Back in the welcome flow.\"
  edges:
    - id: e-welcome
      from:
        eventId: ev-welcome
      to:
        groupId: g-welcome
  variables:
    - id: v-name
      name: Name
      value: Ada
- id: survey
  version: \"6\"
  events:
    - id: ev-survey
      outgoingEdgeId: e-survey
  groups:
    - id: g-survey
      title: Survey
      blocks:
        - id: s1
          type: text
          options:
            content: \"Survey started.\"
  edges:
    - id: e-survey
      from:
        eventId: ev-survey
      to:
        groupId: g-survey
  variables:
    - id: v-survey-name
      name: Name
"

/-- What the demonstration prints, and the fault that stopped it. -/
structure Output where
  lines : List String
  fault : Option Fault
  deriving Repr

/-- The result id of the session. -/
def resultId : String := "result-demo"

/-- More groups than the session enters. -/
def groups : Nat := 100

/-- The lines that open the output. -/
def heading : List String := ["=== XChatflow flow linking ===", ""]

/-- The text that a block shows. -/
def content? (b : Block) : Option String :=
  match b.options with
  | some (.object entries) =>
    match Entries.get? "content" entries with
    | some (.string text) => some text
    | _ => none
  | _ => none

/-- The line of a log entry. -/
def logLine (l : Log) : String := String.join ["  ! ", l.description, ": ", l.details.getD ""]

/-- The lines of an event. -/
def eventLines : RunEvent → List String
  | .entered _ _ _ => []
  | .reached flowId b => (content? b).toList.map fun text => String.join ["  [", flowId, "] ", text]
  | .answered _ reply =>
    reply.logs.map logLine
      ++ reply.session.toList.map fun s => String.join ["  -> queue depth ", toString s.depth]

/-- The line of a record. -/
def recordLine (r : ResultRow) : String :=
  String.join ["  ", r.id, " flow=", r.flowId, " started=", toString r.hasStarted, " completed=",
    toString r.isCompleted]

/-- The lines that close the output: the records by their ids. -/
def closing (l : Ledger) : List String :=
  ["", String.join ["=== Session finished (", toString l.size, " result rows) ==="]]
    ++ l.values.map recordLine

/-- The stores with every flow published under its own id. -/
def stores (ids : IdSource) (ds : List Definition) : Memory :=
  ds.foldl (fun m d => m.publish d.id d) (.empty ids)

/-- Performs the session of a root flow. -/
def perform (ids : IdSource) (config : Config) (ds : List Definition) (root : Flow) : Output :=
  let session := Session.start (.root root (some resultId))
  let start := root.events.head?.bind (·.outgoingEdgeId)
  let (r, memory) :=
    Registry.default.run Memory.host config groups session start (stores ids ds)
  let lines := r.events.flatMap eventLines
  match r.ending with
  | .aborted f => ⟨lines, some f⟩
  | .finished => ⟨lines ++ closing memory.results, none⟩
  | .interrupted => ⟨lines ++ closing memory.results, none⟩

/-- The configuration that a document gives, if there is one. -/
def configure : Option (Format × String) → Except Fault Config
  | none => .ok .default
  | some (format, text) => Config.ofDocument format text

/-- Runs the demonstration. -/
def run (ids : IdSource) (document : Option (Format × String)) : Output :=
  match configure document with
  | .error f => ⟨heading, some f⟩
  | .ok config =>
    match Definition.listOfDocument .yaml flows with
    | .error f => ⟨heading, some f⟩
    | .ok [] => ⟨heading ++ ["[OK] 0 flows parsed"], none⟩
    | .ok (d :: ds) =>
      let opening := heading ++ [String.join ["[OK] ", toString (ds.length + 1), " flows parsed"]]
      match d.toFlow none with
      | .error f => ⟨opening, some f⟩
      | .ok root =>
        let body := perform ids config (d :: ds) root
        { body with lines := opening ++ body.lines }

/-- The exit code: zero unless a fault stopped the demonstration. -/
def Output.exitCode (o : Output) : Nat := if o.fault.isSome then 1 else 0

end Demo

end Dialogue
