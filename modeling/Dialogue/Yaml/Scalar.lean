import Dialogue.Double.Parse
import Dialogue.Json
import Dialogue.Text.Base64
import Dialogue.Text.Blank
import Dialogue.Yaml.Token

/-!
# Scalars of YAML

A scalar is a text with the way it is written and its tag. A plain text may stand for null, a truth
value or a number where nothing is said about what is wanted (`Scalar.toJson?`); where something is
said, the text is read as that, whatever the way it is written.
-/

namespace Dialogue.Yaml

/-- What a tag says about a scalar. -/
inductive Tag where
  | untagged
  | null
  /-- A text. -/
  | text
  /-- A text, spelt in Base64. -/
  | binary
  /-- A number, a truth value, a time or a collection. -/
  | typed
  /-- Not a plain text, although it is written as one. -/
  | unspecific
  | other
  deriving DecidableEq, Repr

/-- The front of the names of the tags that YAML defines. -/
def Tag.coreMeaning : String := "tag:yaml.org,2002:"

/-- The tags that YAML defines. -/
def Tag.core : List (String × Tag) :=
  [("null", .null), ("str", .text), ("binary", .binary), ("bool", .typed), ("int", .typed),
   ("float", .typed), ("timestamp", .typed), ("seq", .typed), ("map", .typed)]

/-- The tag of a name in full. -/
def Tag.ofName (name : String) : Tag :=
  if name = "!" then .unspecific
  else ((Tag.core.map fun t => (Tag.coreMeaning ++ t.1, t.2)).lookup name).getD .other

/-- A text with the way it is written and its tag. -/
structure Scalar where
  style : Style
  tag : Tag
  text : String
  deriving DecidableEq, Repr

/-! ### Texts that stand for something -/

/-- A text in lower case, as far as ASCII goes. -/
def lowered (cs : List Char) : String := String.ofList (cs.map Double.lower)

/-- Whether a text stands for null. -/
def spellsNull (text : String) : Bool :=
  text = "" || text = "~" || lowered text.toList = "null"

/-- The truth value that a text spells. -/
def truth? (cs : List Char) : Option Bool :=
  let word := lowered cs
  if ["true", "yes", "on", "y"].contains word then some true
  else if ["false", "no", "off", "n"].contains word then some false
  else none

/-- The number that digits of a base spell; underscores between them are skipped. -/
def digits? (base : Nat) (cs : List Char) : Option Nat :=
  let ds := cs.filter (· != '_')
  if ds.isEmpty then none else digitsFrom? base 0 ds

/-- A whole number without sign, in the base that its opening tells. -/
def natural? : List Char → Option Nat
  | '0' :: 'x' :: rest => digits? 16 rest
  | '0' :: 'X' :: rest => digits? 16 rest
  | '0' :: 'o' :: rest => digits? 8 rest
  | '0' :: 'O' :: rest => digits? 8 rest
  | '0' :: 'b' :: rest => digits? 2 rest
  | '0' :: 'B' :: rest => digits? 2 rest
  | rest => digits? 10 rest

/-- A whole number from zero that fits 64 bits; a plus sign may come first. -/
def count? (cs : List Char) : Option Nat :=
  (natural? (if cs.head? = some '+' then cs.drop 1 else cs)).filter (· < twoTo 64)

/-- A whole number that fits 64 bits. -/
def whole? (cs : List Char) : Option Int :=
  match cs with
  | '-' :: rest => (natural? rest).bind fun n => if n ≤ twoTo 63 then some (-n) else none
  | _ => (count? cs).map fun n => n

/-- A number, or the name of an infinity or of NaN with a dot in front. -/
def real? (cs : List Char) : Option Double :=
  let (negative, rest) := Double.signed cs
  let name := lowered rest
  if name = ".inf" then some (Double.infinity negative)
  else if name = ".nan" then some Double.nan
  else Double.parse? cs

/-- A double as an untyped value: what is not finite is a text. -/
def ofReal (d : Double) : Json :=
  match d.meaning with
  | .nan => .string ".nan"
  | .infinite negative => .string (if negative then "-.inf" else ".inf")
  | .finite _ _ _ => .double d

/-- What a plain text stands for where nothing is said. -/
def resolve (text : String) : Json :=
  let cs := Text.trim text.toList
  if spellsNull text then .null
  else match truth? cs with
    | some b => .bool b
    | none => match whole? cs with
      | some n => .int n
      | none => match real? cs with
        | some d => ofReal d
        | none => .string text

namespace Scalar

/-- The text that a node without content has. -/
def missing : Scalar := ⟨.plain, .untagged, "~"⟩

/-- Whether a plain text stands for null. -/
def isNull (s : Scalar) : Bool := s.style = .plain && spellsNull s.text

/-- The key under which the entries of other maps are added. -/
def isMerge (s : Scalar) : Bool := s.style = .plain && s.tag = .untagged && s.text = "<<"

/-- The characters without the white space at their ends. -/
def trimmed (s : Scalar) : List Char := Text.trim s.text.toList

/-- The text that is meant, whatever it spells. -/
def content? (s : Scalar) : Option String :=
  match s.tag with
  | .binary => Text.Base64.decodeText? s.text
  | .typed => none
  | _ => some s.text

/-- The text; null is none. -/
def text? (s : Scalar) : Option String :=
  if s.tag = .null || s.isNull then none else s.content?

/-- Whether nothing is meant where a value may be missing. -/
def isAbsent (s : Scalar) : Bool :=
  s.tag = .null || s.isNull || (s.text = "" && s.style != .quoted)

/-- The untyped value. -/
def toJson? (s : Scalar) : Option Json :=
  if s.tag = .null then some .null
  else if s.style = .plain && [.untagged, .text, .other].contains s.tag then some (resolve s.text)
  else s.content?.map .string

/-- The scalar under an anchor: an empty text in quotes counts as one without. -/
def anchored (s : Scalar) : Scalar :=
  if s.style = .quoted && s.text = "" then { s with style := .plain } else s

end Scalar

end Dialogue.Yaml
