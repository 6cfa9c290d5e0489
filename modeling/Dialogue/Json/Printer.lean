import Dialogue.Json
import Dialogue.Double.Shortest

/-!
# Writing JSON text

`Json.print` writes a value on one line, without blanks. A quote, a backslash and the control
characters are escaped and nothing else; doubles are laid out by `Double.Layout.json`.
-/

namespace Dialogue.Json

/-- One hexadecimal digit, lower case. -/
def hexDigit (n : Nat) : Char :=
  if n < 10 then Char.ofNat ('0'.toNat + n) else Char.ofNat ('a'.toNat + (n - 10))

/-- A character inside a string literal. -/
def escapeChar (c : Char) : List Char :=
  match c with
  | '"' => ['\\', '"']
  | '\\' => ['\\', '\\']
  | '\n' => ['\\', 'n']
  | '\r' => ['\\', 'r']
  | '\t' => ['\\', 't']
  | '\x08' => ['\\', 'b']
  | '\x0c' => ['\\', 'f']
  | c =>
    if c.toNat < 0x20 then
      ['\\', 'u', '0', '0', hexDigit (c.toNat / 16), hexDigit (c.toNat % 16)]
    else [c]

/-- A string literal. -/
def quote (s : String) : String :=
  String.ofList ('"' :: s.toList.flatMap escapeChar ++ ['"'])

/-- A double as JSON writes it; what is not finite is written `null`. -/
def doubleText (d : Double) : String :=
  if d.isFinite then d.text .json else "null"

mutual
/-- The text of a value. -/
def print : Json → String
  | .null => "null"
  | .bool b => if b then "true" else "false"
  | .int n => toString n
  | .double d => doubleText d
  | .string s => quote s
  | .array [] => "[]"
  | .array (x :: xs) => "[" ++ print x ++ printItems xs ++ "]"
  | .object [] => "\x7b\x7d"
  | .object (e :: es) => "\x7b" ++ printEntry e ++ printEntries es ++ "\x7d"
/-- Further items, each after a comma. -/
def printItems : List Json → String
  | [] => ""
  | x :: xs => "," ++ print x ++ printItems xs
/-- An entry. -/
def printEntry : String × Json → String
  | (k, v) => quote k ++ ":" ++ print v
/-- Further entries, each after a comma. -/
def printEntries : List (String × Json) → String
  | [] => ""
  | e :: es => "," ++ printEntry e ++ printEntries es
end

end Dialogue.Json
