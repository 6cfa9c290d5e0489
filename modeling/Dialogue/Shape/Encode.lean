import Dialogue.Shape

/-!
# Writing values of a shape

`Shape.encode` writes what `Shape.decode` reads: a record as an object with its fields in declared
order, without the optional fields that hold nothing, followed by the entries that an open record
has kept.
-/

namespace Dialogue

/-- Whether a value is the nothing of a nullable shape. -/
def Shape.isNone : (s : Shape) → s.Value → Bool
  | .nullable _, none => true
  | _, _ => false

mutual
/-- Writes a value. -/
def Shape.encode : (s : Shape) → s.Value → Json
  | .string, t => .string t
  | .boolean, b => .bool b
  | .count, n => .int (Int.ofNat n)
  | .real, d => .double d
  | .any, j => j
  | .nullable _, none => .null
  | .nullable s, some v => s.encode v
  | .list s, vs => .array (vs.map s.encode)
  | .choice names, i => .string (names.get i)
  | .record _ false fs, v => .object (fs.encode v)
  | .record _ true fs, (v, extra) => .object (fs.encode v ++ extra)
/-- Writes the fields of a record. -/
def Fields.encode : (fs : Fields) → fs.Value → Entries
  | .nil, _ => []
  | .cons key .optional s rest, (v, vs) =>
    if s.isNone v then rest.encode vs else (key, s.encode v) :: rest.encode vs
  | .cons key .required s rest, (v, vs) => (key, s.encode v) :: rest.encode vs
  | .cons key (.defaulted _) s rest, (v, vs) => (key, s.encode v) :: rest.encode vs
end

end Dialogue
