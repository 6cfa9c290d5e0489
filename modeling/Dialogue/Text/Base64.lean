/-!
# Base64

Three bytes are written as four digits of six bits each. A last group that is not full is filled up
with `=`, and the bits that such a group has to spare are zero. Blanks between the digits are
skipped.
-/

namespace Dialogue.Text.Base64

/-- The value of a digit. -/
def digit? (c : Char) : Option Nat :=
  if 'A' ≤ c && c ≤ 'Z' then some (c.toNat - 'A'.toNat)
  else if 'a' ≤ c && c ≤ 'z' then some (c.toNat - 'a'.toNat + 26)
  else if '0' ≤ c && c ≤ '9' then some (c.toNat - '0'.toNat + 52)
  else if c = '+' then some 62
  else if c = '/' then some 63
  else none

/-- The bytes of a full group. -/
def full? (a b c d : Char) : Option (List UInt8) := do
  let n := ((← digit? a) * 64 + (← digit? b)) * 4096 + (← digit? c) * 64 + (← digit? d)
  return [.ofNat (n / 65536), .ofNat (n / 256 % 256), .ofNat (n % 256)]

/-- The bytes of a group of three digits. -/
def two? (a b c : Char) : Option (List UInt8) := do
  let n := ((← digit? a) * 64 + (← digit? b)) * 64 + (← digit? c)
  if n % 4 = 0 then some [.ofNat (n / 1024), .ofNat (n / 4 % 256)] else none

/-- The byte of a group of two digits. -/
def one? (a b : Char) : Option (List UInt8) := do
  let n := (← digit? a) * 64 + (← digit? b)
  if n % 16 = 0 then some [.ofNat (n / 16)] else none

/-- The bytes that groups of digits stand for. -/
def groups? : List Char → Option (List UInt8)
  | [] => some []
  | [a, b, '=', '='] => one? a b
  | [a, b, c, '='] => two? a b c
  | a :: b :: c :: d :: rest => do return (← full? a b c d) ++ (← groups? rest)
  | _ => none

/-- A blank between digits. -/
def isGap (c : Char) : Bool := c = ' ' || c = '\t' || c = '\n' || c = '\x0c' || c = '\r'

/-- The bytes that a text stands for. -/
def decode? (text : String) : Option ByteArray :=
  (groups? (text.toList.filter fun c => !isGap c)).map fun bytes => ⟨bytes.toArray⟩

/-- The text whose bytes are given. -/
def decodeText? (text : String) : Option String := (decode? text).bind String.fromUTF8?

end Dialogue.Text.Base64
