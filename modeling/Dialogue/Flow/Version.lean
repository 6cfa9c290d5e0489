import Dialogue.Double.Parse
import Dialogue.Double.Shortest
import Dialogue.Flow
import Dialogue.Text.Blank

/-!
# Versions of flows

A flow carries the version of its format as a tag. A tag that is missing or does not read as a
number belongs to a legacy flow, which is older than every version.
-/

namespace Dialogue

/-- A version number, or none for a legacy flow. -/
structure Version where
  number : Option Double
  deriving DecidableEq, Repr

namespace Version

/-- The version that brought declared events and made merging a choice. -/
def six : Double := Double.ofInt 6

/-- Reads a tag, which white space may surround. -/
def ofTag (tag : Option String) : Version :=
  ⟨tag.bind fun t => Double.parse? (Text.trim t.toList)⟩

/-- Whether the version is a given one or a later one. -/
def atLeast (v : Version) (threshold : Double) : Bool :=
  match v.number with
  | some n => threshold.atMost n
  | none => false

/-- Whether the flow declares events. -/
def isModern (v : Version) : Bool := v.atLeast six

/-- The version as text. -/
def text (v : Version) : String :=
  match v.number with
  | some n => n.text .plain
  | none => "legacy"

end Version

/-- The version of a flow. -/
def Flow.schemaVersion (f : Flow) : Version := .ofTag f.version

end Dialogue
