import Dialogue.Text.Hidden

/-!
# Quoted text in messages

`quoted` shows a text so that nothing in it is invisible: quotes, backslashes and the common control
characters get a short escape, and every other character that does not print by itself is spelt out
by its code point.
-/

namespace Dialogue.Text

/-- A code point in hexadecimal, without leading zeros. -/
def hex (n : Nat) : List Char := Nat.toDigits 16 n

/-- Whether a character is spelt out by its code point. -/
def isHidden (c : Char) : Bool :=
  let code := c.toNat
  code < 0x20 || code == 0x7f || (0x80 ≤ code && Hidden.within code Hidden.ranges)

/-- A character inside a quoted text. -/
def quotedChar (c : Char) : List Char :=
  match c with
  | '"' => ['\\', '"']
  | '\\' => ['\\', '\\']
  | '\n' => ['\\', 'n']
  | '\r' => ['\\', 'r']
  | '\t' => ['\\', 't']
  | '\x00' => ['\\', '0']
  | c => if isHidden c then ['\\', 'u', '\x7b'] ++ hex c.toNat ++ ['\x7d'] else [c]

/-- A text between quotes. -/
def quoted (s : String) : String :=
  String.ofList ('"' :: s.toList.flatMap quotedChar ++ ['"'])

end Dialogue.Text
