/-!
# Double-precision numbers

A double is held as its 64 bits, so that two doubles are equal exactly when they are written the
same way: the two zeros differ and a NaN equals itself. All arithmetic here is exact arithmetic on
natural numbers followed by one rounding to nearest, ties to even (`Double.nearest`).
-/

namespace Dialogue

/-- A power of two. -/
def twoTo (n : Nat) : Nat := Nat.pow 2 n

/-- A power of ten. -/
def tenTo (n : Nat) : Nat := Nat.pow 10 n

/-- An IEEE double, held as its bits. -/
structure Double where
  bits : UInt64
  deriving DecidableEq, Repr, Inhabited

namespace Double

/-- What a double stands for; a finite one is `mantissa * 2 ^ (exponent - 1074)`. -/
inductive Meaning where
  | nan
  | infinite (negative : Bool)
  | finite (negative : Bool) (mantissa exponent : Nat)
  deriving DecidableEq, Repr

/-- The bits of the smallest magnitude that is not finite. -/
def infinityBits : Nat := 0x7ff * twoTo 52

/-- The sign bit. -/
def isNegative (d : Double) : Bool := twoTo 63 ≤ d.bits.toNat

/-- The bits below the sign bit. -/
def magnitude (d : Double) : Nat := d.bits.toNat % twoTo 63

/-- The number a double stands for. -/
def meaning (d : Double) : Meaning :=
  let field := d.magnitude / twoTo 52
  let fraction := d.magnitude % twoTo 52
  if field = 0x7ff then
    if fraction = 0 then .infinite d.isNegative else .nan
  else if field = 0 then .finite d.isNegative fraction 0
  else .finite d.isNegative (twoTo 52 + fraction) (field - 1)

/-- The double of a given sign and magnitude bits. -/
def ofMagnitude (negative : Bool) (magnitude : Nat) : Double :=
  ⟨UInt64.ofNat (magnitude + if negative then twoTo 63 else 0)⟩

/-- Positive zero. -/
def zero : Double := ofMagnitude false 0

/-- An infinity. -/
def infinity (negative : Bool) : Double := ofMagnitude negative infinityBits

/-- The quiet NaN. -/
def nan : Double := ofMagnitude false (infinityBits + twoTo 51)

/-- The same number with the opposite sign. -/
def negate (d : Double) : Double := ofMagnitude (!d.isNegative) d.magnitude

/-- Neither infinite nor NaN. -/
def isFinite (d : Double) : Bool := d.magnitude < infinityBits

/-- Either zero. -/
def isZero (d : Double) : Bool := d.magnitude = 0

/-- `num / den` rounded to a whole number, a tie going to the even neighbour. -/
def roundHalfEven (num den : Nat) : Nat :=
  let whole := num / den
  let twice := 2 * (num % den)
  if twice < den then whole
  else if den < twice then whole + 1
  else whole + whole % 2

/-- The magnitude bits of the double nearest to `num / den`; ties go to the even mantissa, and what
is too large is infinite. -/
def nearestMagnitude (num den : Nat) : Nat :=
  if num = 0 || den = 0 then 0
  else
    -- the quotient lies in `[2 ^ log, 2 ^ (log + 1))`
    let guess : Int := (Nat.log2 num : Int) - (Nat.log2 den : Int)
    let reaches : Bool :=
      if 0 ≤ guess then den * twoTo guess.toNat ≤ num else den ≤ num * twoTo (-guess).toNat
    let log := if reaches then guess else guess - 1
    let scale := max (log - 52) (-1074)
    let mantissa :=
      if 0 ≤ scale then roundHalfEven num (den * twoTo scale.toNat)
      else roundHalfEven (num * twoTo (-scale).toNat) den
    min ((scale + 1074).toNat * twoTo 52 + mantissa) infinityBits

/-- The double nearest to a fraction of the given sign. -/
def nearest (negative : Bool) (num den : Nat) : Double :=
  ofMagnitude negative (nearestMagnitude num den)

/-- The double nearest to a whole number. -/
def ofInt (n : Int) : Double := nearest (n < 0) n.natAbs 1

/-- The double nearest to `coefficient * 10 ^ exponent`. Exponents so far out that the answer is
zero or infinite are decided without computing the power. -/
def ofDecimal (negative : Bool) (coefficient : Nat) (exponent : Int) : Double :=
  let digits : Int := (Nat.log2 coefficient / 3 + 1 : Nat)
  if coefficient = 0 || exponent + digits < -340 then ofMagnitude negative 0
  else if 310 < exponent then infinity negative
  else if 0 ≤ exponent then nearest negative (coefficient * tenTo exponent.toNat) 1
  else nearest negative coefficient (tenTo (-exponent).toNat)

/-- The magnitude of a finite double as a fraction with a fixed denominator of `2 ^ 1074`. -/
def scaledMagnitude (d : Double) : Nat :=
  match d.meaning with
  | .finite _ mantissa exponent => mantissa * twoTo exponent
  | _ => twoTo 2200

/-- The number with its sign, as a multiple of `2 ^ -1074`; an infinity lies beyond every finite
one. -/
def scaled (d : Double) : Int :=
  if d.isNegative then -(d.scaledMagnitude : Int) else d.scaledMagnitude

/-- The product of finite doubles, rounded to nearest. -/
def times (a b : Double) : Double :=
  nearest (a.isNegative != b.isNegative) (a.scaledMagnitude * b.scaledMagnitude) (twoTo 2148)

/-- The quotient of finite doubles, rounded to nearest. -/
def dividedBy (a b : Double) : Double :=
  nearest (a.isNegative != b.isNegative) a.scaledMagnitude b.scaledMagnitude

/-- Numeric order: NaN is comparable to nothing and the two zeros are equal. -/
def atMost (a b : Double) : Bool :=
  match a.meaning, b.meaning with
  | .nan, _ => false
  | _, .nan => false
  | _, _ => a.scaled ≤ b.scaled

/-- Numeric equality: NaN equals nothing and the two zeros are equal. -/
def sameNumber (a b : Double) : Bool := a.atMost b && b.atMost a

end Double

end Dialogue
