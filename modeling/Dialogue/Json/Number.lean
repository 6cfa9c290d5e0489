import Dialogue.Json.Cursor

/-!
# Numbers in JSON text

A number without fraction and exponent is whole as long as it fits 64 bits, signed or unsigned;
every other number is a double. The digits of a double are gathered in an unsigned 64-bit
coefficient, and digits that no longer fit are dropped; the coefficient is then scaled by one
rounded multiplication or division, so the last bit may differ from that of the nearest double.
Skipping a number checks its spelling only.
-/

namespace Dialogue.Json

/-- One more than the greatest coefficient. -/
def coefficientBound : Nat := twoTo 64

/-- The greatest exponent that is told apart from an overflow. -/
def exponentBound : Nat := twoTo 31

/-- The value of a decimal digit. -/
def digitValue (c : Char) : Nat := c.toNat - '0'.toNat

/-- Appends digits to a coefficient until one no longer fits; also how many were taken. -/
def takeDigits (coefficient : Nat) : List Char → Nat → Nat × Nat
  | [], taken => (coefficient, taken)
  | d :: rest, taken =>
    let next := coefficient * 10 + digitValue d
    if next < coefficientBound then takeDigits next rest (taken + 1) else (coefficient, taken)

/-- A power of ten as a double. -/
def powerOfTen (n : Nat) : Double := Double.nearest false (tenTo n) 1

/-- Divides by `10 ^ 308` while the exponent lies below what one power of ten can express, then
scales once; `none` when the result is too large. -/
def scale : Nat → Double → Int → Option Double
  | 0, f, _ => some f
  | steps + 1, f, exponent =>
    if exponent.natAbs ≤ 308 then
      let scaled :=
        if 0 ≤ exponent then f.times (powerOfTen exponent.natAbs)
        else f.dividedBy (powerOfTen exponent.natAbs)
      if scaled.isFinite then some scaled else none
    else if f.isZero then some f
    else if 0 ≤ exponent then none
    else scale steps (f.dividedBy (powerOfTen 308)) (exponent + 308)

namespace Reader

/-- A double from its coefficient and decimal exponent. A positive coefficient vanishes within three
divisions. -/
def double (negative : Bool) (coefficient : Nat) (exponent : Int) : Reader Json :=
  match scale 5 (Double.ofInt coefficient) exponent with
  | some f => pure (.double (if negative then f.negate else f))
  | none => fail .numberOutOfRange

/-- The digits at the front of a text, and the cursor behind them. -/
def splitDigits (place : Place) : List Char → List Char × Cursor
  | [] => ([], ⟨place, []⟩)
  | c :: rest =>
    if c.isDigit then
      let (digits, behind) := splitDigits (place.past c) rest
      (c :: digits, behind)
    else ([], ⟨place, c :: rest⟩)

/-- Consumes digits. -/
def digits : Reader (List Char) := fun c =>
  let (ds, behind) := splitDigits c.place c.rest
  (.ok ds, behind)

/-- The sign of an exponent: whether it is negative. -/
def exponentSign : Reader Bool := do
  match ← peek with
  | some '+' => do skip; pure false
  | some '-' => do skip; pure true
  | _ => pure false

/-- Consumes exponent digits one by one; `none` as soon as the exponent overflows. -/
def exponentDigits : List Char → Nat → Reader (Option Nat)
  | [], exponent => pure (some exponent)
  | d :: more, exponent => do
    skip
    let next := exponent * 10 + digitValue d
    if next < exponentBound then exponentDigits more next else pure none

/-- The exponent part, whose letter comes next, and with it the number. -/
def exponentPart (negative : Bool) (coefficient : Nat) (start : Int) : Reader Json := do
  skip
  let down ← exponentSign
  match ← peek with
  | none => fail .endInValue
  | some d =>
    if d.isDigit then
      skip
      let upcoming := (splitDigits ⟨1, 0⟩ (← get).rest).1
      match ← exponentDigits upcoming (digitValue d) with
      | some exponent =>
        double negative coefficient (if down then start - exponent else start + exponent)
      | none =>
        if coefficient ≠ 0 && !down then fail .numberOutOfRange
        else do
          let _ ← digits
          pure (.double (Double.ofMagnitude negative 0))
    else failAtNext .invalidNumber

/-- The exponent part if there is one, and with it the number. -/
def doubleRest (negative : Bool) (coefficient : Nat) (exponent : Int) : Reader Json := do
  match ← peek with
  | some 'e' => exponentPart negative coefficient exponent
  | some 'E' => exponentPart negative coefficient exponent
  | _ => double negative coefficient exponent

/-- The fraction, whose point comes next, and with it the number. -/
def fraction (negative : Bool) (coefficient : Nat) (start : Int) : Reader Json := do
  skip
  let ds ← digits
  if ds.isEmpty then
    match ← peek with
    | some _ => failAtNext .invalidNumber
    | none => failAtNext .endInValue
  else
    let (coefficient, taken) := takeDigits coefficient ds 0
    doubleRest negative coefficient (start - taken)

/-- A number without fraction and exponent. -/
def wholeNumber (negative : Bool) (n : Nat) : Json :=
  if !negative then .int n
  else if 1 ≤ n && n ≤ twoTo 63 then .int (-n)
  else .double (Double.ofInt n).negate

/-- What follows the digits in front of the point. -/
def afterWhole (negative : Bool) (ds : List Char) : Reader Json := do
  let (coefficient, taken) := takeDigits 0 ds 0
  let dropped := ds.length - taken
  match ← peek with
  | some '.' => fraction negative coefficient dropped
  | some 'e' => exponentPart negative coefficient dropped
  | some 'E' => exponentPart negative coefficient dropped
  | _ =>
    if dropped = 0 then pure (wholeNumber negative coefficient)
    else double negative coefficient dropped

/-- A number behind its sign. -/
def unsigned (negative : Bool) : Reader Json := do
  match ← peek with
  | none => fail .endInValue
  | some '0' =>
    skip
    match ← peek with
    | some c => if c.isDigit then failAtNext .invalidNumber else afterWhole negative ['0']
    | none => afterWhole negative ['0']
  | some c =>
    if c.isDigit then do afterWhole negative (← digits)
    else failAtNext .invalidNumber

/-- A number. -/
def number : Reader Json := do
  match ← peek with
  | some '-' => do skip; unsigned true
  | _ => unsigned false

/-- Skips an exponent part, whose letter comes next. -/
def skipExponent : Reader Unit := do
  skip
  let _ ← exponentSign
  match ← peek with
  | none => fail .invalidNumber
  | some d => if d.isDigit then do let _ ← digits else failAtNext .invalidNumber

/-- Skips what may follow the whole part or the fraction. -/
def skipExponentIfAny : Reader Unit := do
  match ← peek with
  | some 'e' => skipExponent
  | some 'E' => skipExponent
  | _ => pure ()

/-- Skips a number behind its sign. -/
def skipUnsigned : Reader Unit := do
  match ← peek with
  | none => fail .invalidNumber
  | some '0' =>
    skip
    match ← peek with
    | some c => if c.isDigit then failAtNext .invalidNumber else pure ()
    | none => pure ()
  | some c =>
    if c.isDigit then do let _ ← digits
    else failAtNext .invalidNumber
  match ← peek with
  | some '.' =>
    skip
    let ds ← digits
    if ds.isEmpty then failAtNext .invalidNumber else skipExponentIfAny
  | _ => skipExponentIfAny

end Reader

end Dialogue.Json
