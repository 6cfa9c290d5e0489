import Dialogue.Double

/-!
# The shortest decimal of a double

`Double.shortest` finds the decimal with the fewest digits that still reads back as the given double
and, of those, the nearest; where two are equally near, a `Tie` decides. It looks at one decimal
grid after another, from coarse to fine, and on each grid at the two neighbours of the double; the
first grid with a neighbour inside the interval of reals that round to the double decides. All of it
is exact arithmetic on natural numbers.

`Double.text` lays the digits out under a `Layout`, the record of a format's choices.
-/

namespace Dialogue.Double

/-- A decimal `digits * 10 ^ exponent`. -/
structure Decimal where
  digits : Nat
  exponent : Int
  deriving DecidableEq, Repr

/-- Which of two equally near decimals is taken. -/
inductive Tie where
  | toEven
  | awayFromZero
  deriving DecidableEq, Repr

/-- The reals that round to a double: the double and both ends, as multiples of `2 ^ -1076`. -/
structure Interval where
  low : Nat
  middle : Nat
  high : Nat
  /-- The ends round to the double too, because its mantissa is even. -/
  closed : Bool

/-- The interval of the finite magnitude `mantissa * 2 ^ (exponent - 1074)`. Below a power of two
the doubles lie twice as dense, so the lower end is nearer. -/
def Interval.of (mantissa exponent : Nat) : Interval :=
  let reach := if mantissa = twoTo 52 && 0 < exponent then 1 else 2
  { low := (4 * mantissa - reach) * twoTo exponent
    middle := 4 * mantissa * twoTo exponent
    high := (4 * mantissa + 2) * twoTo exponent
    closed := mantissa % 2 = 0 }

/-- Whether the fraction `point / scale` of the interval's unit lies in the interval. -/
def Interval.contains (i : Interval) (scale point : Nat) : Bool :=
  if i.closed then i.low * scale ≤ point && point ≤ i.high * scale
  else i.low * scale < point && point < i.high * scale

/-- The point of the grid of multiples of `10 ^ grid` that stands for the interval: of the two
neighbours of its middle, one that lies inside it, and of two the nearer. -/
def Interval.onGrid (i : Interval) (tie : Tie) (grid : Int) : Option Nat :=
  let unit := twoTo 1076 * tenTo grid.toNat
  let scale := tenTo (-grid).toNat
  let below := i.middle * scale / unit
  let above := below + 1
  let fits (k : Nat) : Bool := 0 < k && i.contains scale (k * unit)
  let belowGap := i.middle * scale - below * unit
  let aboveGap := above * unit - i.middle * scale
  match fits below, fits above with
  | true, true =>
    if belowGap < aboveGap then some below
    else if aboveGap < belowGap then some above
    else if tie = .toEven && below % 2 = 0 then some below else some above
  | true, false => some below
  | false, true => some above
  | false, false => none

/-- The first grid that holds a point of the interval, going from `10 ^ grid` to finer grids. -/
def Interval.coarsest (i : Interval) (tie : Tie) : Nat → Int → Decimal
  | 0, grid => ⟨i.middle, grid⟩
  | tries + 1, grid =>
    match i.onGrid tie grid with
    | some k => ⟨k, grid⟩
    | none => i.coarsest tie tries (grid - 1)

/-- The decimal with the fewest digits that reads back as the positive number
`mantissa * 2 ^ (exponent - 1074)`. The search starts above the number and needs at most seventeen
digits. -/
def shortest (tie : Tie) (mantissa exponent : Nat) : Decimal :=
  let log2 : Int := (Nat.log2 mantissa : Int) + exponent - 1074
  let start : Int := log2 * 30103 / 100000 + 2
  (Interval.of mantissa exponent).coarsest tie 22 start

/-- How a format writes a double. -/
structure Layout where
  /-- Decimal exponents from here … -/
  leastPositional : Int
  /-- … to here are written without an exponent. -/
  greatestPositional : Int
  /-- A whole number is written with `.0`. -/
  marksWhole : Bool
  tie : Tie

/-- Layout of numbers in JSON texts and in messages: positional from 0.00001 to sixteen whole
digits, otherwise with a signed exponent. -/
def Layout.json : Layout := ⟨-5, 15, true, .toEven⟩

/-- Layout of version tags: never an exponent, and no fraction on a whole number. -/
def Layout.plain : Layout := ⟨-400, 400, false, .awayFromZero⟩

/-- `n` zeros. -/
def zeros (n : Nat) : String := String.ofList (List.replicate n '0')

/-- The exponent part, always signed. -/
def Layout.exponentText (exponent : Int) : String :=
  (if exponent < 0 then "e-" else "e+") ++ toString exponent.natAbs

/-- The text of a positive decimal under a layout. -/
def Layout.write (l : Layout) (d : Decimal) : String :=
  let digits := toString d.digits
  let exponent : Int := d.exponent + digits.length - 1
  if l.leastPositional ≤ exponent && exponent ≤ l.greatestPositional then
    if 0 ≤ d.exponent then
      digits ++ zeros d.exponent.toNat ++ (if l.marksWhole then ".0" else "")
    else if 0 ≤ exponent then
      let whole := exponent.toNat + 1
      String.ofList (digits.toList.take whole) ++ "." ++ String.ofList (digits.toList.drop whole)
    else "0." ++ zeros ((-exponent).toNat - 1) ++ digits
  else
    match digits.toList with
    | [] => ""
    | [first] => String.ofList [first] ++ Layout.exponentText exponent
    | first :: rest => String.ofList (first :: '.' :: rest) ++ Layout.exponentText exponent

/-- The text of a double under a layout. -/
def text (l : Layout) (d : Double) : String :=
  match d.meaning with
  | .nan => "NaN"
  | .infinite negative => if negative then "-inf" else "inf"
  | .finite negative mantissa exponent =>
    (if negative then "-" else "") ++
      if mantissa = 0 then (if l.marksWhole then "0.0" else "0")
      else l.write (shortest l.tie mantissa exponent)

end Dialogue.Double
