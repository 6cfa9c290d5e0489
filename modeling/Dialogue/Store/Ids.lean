/-!
# Sources of ids

A source is a sequence of ids and a place in it. The ids of `IdSource.counted` share a label and are
numbered from zero; those of `IdSource.random` are random identifiers of 128 bits, drawn from a
seed.
-/

namespace Dialogue

/-- A sequence of ids, of which some have been drawn. -/
structure IdSource where
  id : Nat → String
  drawn : Nat

namespace IdSource

/-- The next id, and the source behind it. -/
def next (s : IdSource) : String × IdSource := (s.id s.drawn, { s with drawn := s.drawn + 1 })

/-- Ids with a label, numbered from zero. -/
def counted (label : String) : IdSource := ⟨fun n => label ++ "-" ++ toString n, 0⟩

/-- A word of the pseudo-random sequence of a seed: equally spaced words, each thoroughly mixed. -/
def randomWord (seed : UInt64) (n : Nat) : UInt64 :=
  let a := seed + 0x9e3779b97f4a7c15 * UInt64.ofNat (n + 1)
  let b := (a ^^^ (a >>> 30)) * 0xbf58476d1ce4e5b9
  let c := (b ^^^ (b >>> 27)) * 0x94d049bb133111eb
  c ^^^ (c >>> 31)

/-- A number in hexadecimal with a fixed number of digits. -/
def hexDigits (width n : Nat) : List Char :=
  let digits := Nat.toDigits 16 n
  List.replicate (width - digits.length) '0' ++ digits

/-- A random identifier from two words: version four, in the standard variant, without dashes. -/
def identifier (high low : UInt64) : String :=
  let first := high.toNat / 0x10000 * 0x10000 + 0x4000 + high.toNat % 0x1000
  let second := 0x8000000000000000 + low.toNat % 0x4000000000000000
  String.ofList (hexDigits 16 first ++ hexDigits 16 second)

/-- Random identifiers drawn from a seed. -/
def random (seed : UInt64) : IdSource :=
  ⟨fun n => identifier (randomWord seed (2 * n)) (randomWord seed (2 * n + 1)), 0⟩

/-- Some ids from the front of a source. -/
def take (s : IdSource) (n : Nat) : List String := (List.range n).map fun i => s.id (s.drawn + i)

/-- Whether an id is a random identifier: 32 hexadecimal digits in lower case, of which the
thirteenth is the version. -/
def isHex32 (id : String) : Bool :=
  id.length == 32 && id.toList.all fun c => c.isDigit || ('a' ≤ c && c ≤ 'f')

/-- Whether the digit that tells the version of a random identifier is four. -/
def isVersionFour (id : String) : Bool := id.toList[12]? == some '4'

end IdSource

end Dialogue
