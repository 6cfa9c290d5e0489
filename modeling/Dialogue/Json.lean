import Dialogue.Double

/-!
# Untyped values

`Json` is the value a document holds where its format says nothing: block options, variable values,
the raw columns of a stored definition. Whole numbers and doubles are told apart, and an object
keeps its entries in order. `Json.same` is equality as a reader of the document sees it, where
neither the order of entries nor the spelling of a number counts.
-/

namespace Dialogue

/-- An untyped value. -/
inductive Json where
  | null
  | bool (b : Bool)
  | int (n : Int)
  | double (d : Double)
  | string (s : String)
  | array (items : List Json)
  | object (entries : List (String × Json))
  deriving Repr, Inhabited

/-- The entries of an object. -/
abbrev Entries := List (String × Json)

/-- The value under a key. -/
def Entries.get? (key : String) : Entries → Option Json
  | [] => none
  | (k, v) :: rest => if k = key then some v else Entries.get? key rest

/-- Adds an entry; under a key already present the value is replaced in its place. -/
def Entries.put (key : String) (value : Json) : Entries → Entries
  | [] => [(key, value)]
  | (k, v) :: rest => if k = key then (k, value) :: rest else (k, v) :: Entries.put key value rest

namespace Json

/-- A number of either kind, as a double. -/
def number? : Json → Option Double
  | .int n => some (Double.ofInt n)
  | .double d => some d
  | _ => none

mutual
/-- Equal as documents: entries in any order, doubles by number. -/
def same : Json → Json → Bool
  | .null, .null => true
  | .bool a, .bool b => a == b
  | .int a, .int b => a == b
  | .double a, .double b => a.sameNumber b
  | .string a, .string b => a == b
  | .array xs, .array ys => sameItems xs ys
  | .object es, .object fs => es.length == fs.length && sameEntries es fs
  | _, _ => false
/-- Equal item by item. -/
def sameItems : List Json → List Json → Bool
  | [], [] => true
  | x :: xs, y :: ys => same x y && sameItems xs ys
  | _, _ => false
/-- Every entry has an equal partner under its key. -/
def sameEntries : List (String × Json) → List (String × Json) → Bool
  | [], _ => true
  | (k, v) :: es, fs =>
    (match fs.lookup k with
      | some w => same v w
      | none => false) && sameEntries es fs
end

end Json

end Dialogue
