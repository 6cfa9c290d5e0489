import Dialogue.Json.Cursor

/-!
# Faults

A fault aborts the turn of a session. What a link block gets wrong (a missing target, an unknown
flow or group) is no fault: it is logged, and the session goes on.
-/

namespace Dialogue

/-- A failure of a store. -/
inductive StoreFault where
  | unavailable (text : String)
  | storage (text : String)
  deriving DecidableEq, Repr

/-- Why a document cannot be read. -/
inductive Unreadable where
  | json (p : Json.Problem)
  | yaml
  deriving DecidableEq, Repr

/-- What is wrong with the definition of a flow. -/
inductive Defect where
  /-- A raw column does not decode. -/
  | column (name : String) (m : Mismatch)
  /-- The document that defines it cannot be read. -/
  | document (why : Unreadable)
  deriving DecidableEq, Repr

/-- What is wrong with the configuration. -/
inductive Misconfiguration where
  | document (why : Unreadable)
  /-- An executor refuses to run. -/
  | refusal (text : String)
  deriving DecidableEq, Repr

/-- A failure that aborts a turn. -/
inductive Fault where
  | store (f : StoreFault)
  | invalidFlow (flowId : String) (defect : Defect)
  /-- The session has no frame. -/
  | noFrame
  | config (why : Misconfiguration)
  deriving DecidableEq, Repr

/-- Whether the failed call may be repeated. -/
def StoreFault.isRetryable : StoreFault → Bool
  | .unavailable _ => true
  | .storage _ => false

/-- The wording of a store's failure. -/
def StoreFault.message : StoreFault → String
  | .unavailable text => String.join ["Store not available: ", text]
  | .storage text => String.join ["Storage error: ", text]

/-- The wording of an unreadable document. -/
def Unreadable.message : Unreadable → String
  | .json p => p.message
  | .yaml => "not a readable YAML document"

/-- The wording of a defect. -/
def Defect.message : Defect → String
  | .column name m => String.join [name, ": ", m.message]
  | .document why => why.message

/-- The wording of a misconfiguration. -/
def Misconfiguration.message : Misconfiguration → String
  | .document why => why.message
  | .refusal text => text

namespace Fault

/-- Whether the turn may be repeated. -/
def isRetryable : Fault → Bool
  | .store f => f.isRetryable
  | _ => false

/-- The wording of a fault. -/
def message : Fault → String
  | .store f => String.join ["Store error: ", f.message]
  | .invalidFlow flowId defect => String.join ["Invalid flow '", flowId, "': ", defect.message]
  | .noFrame => "Session queue is empty"
  | .config why => String.join ["Configuration error: ", why.message]

/-- The id that stands for a flow whose document could not be read. -/
def unparsed : String := "<unparsed>"

end Fault

end Dialogue
