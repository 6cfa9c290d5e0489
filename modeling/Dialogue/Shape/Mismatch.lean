import Dialogue.Shape
import Dialogue.Double.Shortest
import Dialogue.Text.Quoted

/-!
# Values that do not fit

`Mismatch` lists the ways in which a value can fail to fit a shape, and `Mismatch.message` words
them.
-/

namespace Dialogue

/-- What stands in the place of the expected value. -/
inductive Found where
  | null
  | bool (b : Bool)
  | int (n : Int)
  | double (d : Double)
  | string (s : String)
  | sequence
  | map
  deriving DecidableEq, Repr

/-- What a value is, as far as a message tells. -/
def Found.of : Json → Found
  | .null => .null
  | .bool b => .bool b
  | .int n => .int n
  | .double d => .double d
  | .string s => .string s
  | .array _ => .sequence
  | .object _ => .map

/-- What a shape asks for. -/
inductive Expected where
  | string
  | boolean
  | count
  | real
  | sequence
  | map
  /-- The value of a choice that carries nothing. -/
  | unit
  | stringOrMap
  | singleEntry
  | record (name : String)
  deriving DecidableEq, Repr

/-- Why a value does not fit a shape. -/
inductive Mismatch where
  /-- A value of another kind. -/
  | kind (found : Found) (expected : Expected)
  /-- A value of the right kind that is out of range. -/
  | value (found : Found) (expected : Expected)
  | missing (key : String)
  | duplicate (key : String)
  | unknownName (name : String) (names : List String)
  /-- A positional record breaks off before a required field. -/
  | tooShort (items : Nat) (record : String) (size : Nat)
  /-- A positional record has more items than fields. -/
  | tooLong (items : Nat)
  deriving DecidableEq, Repr

/-- Words between backquotes. -/
def backquoted (s : String) : String := String.join ["\x60", s, "\x60"]

/-- The wording of what was found. -/
def Found.text : Found → String
  | .null => "null"
  | .bool b => String.join ["boolean ", backquoted (if b then "true" else "false")]
  | .int n => String.join ["integer ", backquoted (toString n)]
  | .double d => String.join ["floating point ", backquoted (d.text .json)]
  | .string s => String.join ["string ", Text.quoted s]
  | .sequence => "sequence"
  | .map => "map"

/-- The wording of what was expected. -/
def Expected.text : Expected → String
  | .string => "a string"
  | .boolean => "a boolean"
  | .count => "usize"
  | .real => "f64"
  | .sequence => "a sequence"
  | .map => "a map"
  | .unit => "unit"
  | .stringOrMap => "string or map"
  | .singleEntry => "map with a single key"
  | .record name => String.join ["struct ", name]

/-- The wording of a mismatch. -/
def Mismatch.message : Mismatch → String
  | .kind found expected =>
    String.join ["invalid type: ", found.text, ", expected ", expected.text]
  | .value found expected =>
    String.join ["invalid value: ", found.text, ", expected ", expected.text]
  | .missing key => String.join ["missing field ", backquoted key]
  | .duplicate key => String.join ["duplicate field ", backquoted key]
  | .unknownName name names =>
    String.join ["unknown variant ", backquoted name, ", expected one of ",
      ", ".intercalate (names.map backquoted)]
  | .tooShort items record size =>
    String.join ["invalid length ", toString items, ", expected struct ", record, " with ",
      toString size, if size = 1 then " element" else " elements"]
  | .tooLong items =>
    String.join ["invalid length ", toString items, ", expected fewer elements in array"]

end Dialogue
