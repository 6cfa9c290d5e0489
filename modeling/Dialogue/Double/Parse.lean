import Dialogue.Double

/-!
# Doubles from decimal text

`Double.parse?` accepts an optional sign followed by digits with an optional point and an optional
exponent, or by a name for infinity or NaN in any case. At least one digit is needed, on either side
of the point. The answer is the double nearest to the number written.
-/

namespace Dialogue.Double

/-- An ASCII letter in lower case; other characters are kept. -/
def lower (c : Char) : Char := if 'A' ≤ c && c ≤ 'Z' then Char.ofNat (c.toNat + 32) else c

/-- The number that decimal digits spell. -/
def digitsValue (cs : List Char) : Nat :=
  cs.foldl (fun n c => 10 * n + (c.toNat - '0'.toNat)) 0

/-- An optional sign: whether it is negative, and what follows. -/
def signed : List Char → Bool × List Char
  | '-' :: rest => (true, rest)
  | '+' :: rest => (false, rest)
  | rest => (false, rest)

/-- The exponent part, or zero when there is none; nothing may follow it. -/
def exponent? : List Char → Option Int
  | [] => some 0
  | c :: rest =>
    let (negative, digits) := signed rest
    if lower c = 'e' && !digits.isEmpty && digits.all Char.isDigit then
      some (if negative then -(digitsValue digits : Int) else digitsValue digits)
    else none

/-- A number without sign. -/
def unsigned? (negative : Bool) (cs : List Char) : Option Double :=
  let whole := cs.takeWhile Char.isDigit
  let behind := cs.dropWhile Char.isDigit
  let (fraction, rest) := match behind with
    | '.' :: more => (more.takeWhile Char.isDigit, more.dropWhile Char.isDigit)
    | _ => ([], behind)
  if whole.isEmpty && fraction.isEmpty then none
  else (exponent? rest).map fun e =>
    ofDecimal negative (digitsValue (whole ++ fraction)) (e - fraction.length)

/-- A double from text. -/
def parse? (cs : List Char) : Option Double :=
  let (negative, rest) := signed cs
  let name := rest.map lower
  if name = "inf".toList || name = "infinity".toList then some (infinity negative)
  else if name = "nan".toList then some nan
  else unsigned? negative rest

end Dialogue.Double
