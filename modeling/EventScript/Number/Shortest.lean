import EventScript.Number.Exact

/-!
# Shortest decimals

Among the decimals that read back as a given double, `shortest` takes one with the fewest digits,
and of those the nearest to the double. Reading rounds to the nearest double, so the decimals that
read back fill an interval around it; its ends belong to it when the significand is even.

All arithmetic is on whole numbers: the double and the ends of its interval are fractions over one
denominator, and for each count of digits the two decimals next to the double are tried.
-/

namespace EventScript.Number

/-- A double with the interval of reals that round to it, over one denominator. -/
structure Neighbourhood where
  /-- Lower end. -/
  low : Nat
  /-- The double itself. -/
  centre : Nat
  /-- Upper end. -/
  high : Nat
  denominator : Nat
  /-- Whether the ends themselves round to the double. -/
  closed : Bool

namespace Neighbourhood

/-- The neighbourhood of `significand * 2 ^ exponent`. Below a power of two the doubles lie twice as
dense, so the lower half of its interval is half as wide. -/
def ofBinary (significand : Nat) (exponent : Int) : Neighbourhood :=
  let narrow := significand = Nat.pow 2 52 ∧ -1074 < exponent
  let (scale, denominator) := Exact.quotient 1 (exponent - 2)
  { low := (4 * significand - if narrow then 1 else 2) * scale
    centre := 4 * significand * scale
    high := (4 * significand + 2) * scale
    denominator
    closed := significand % 2 == 0 }

/-- Whether the decimal `digits * unit` lies in the interval, where `unit` is a fraction. -/
def holds (n : Neighbourhood) (digits : Nat) (unit : Nat × Nat) : Bool :=
  let value := digits * unit.1 * n.denominator
  let low := n.low * unit.2
  let high := n.high * unit.2
  if n.closed then low ≤ value && value ≤ high else low < value && value < high

end Neighbourhood

/-- `10 ^ exponent` as a quotient of whole numbers. -/
def powerOfTen (exponent : Int) : Nat × Nat :=
  match exponent with
  | .ofNat e => (Nat.pow 10 e, 1)
  | .negSucc e => (1, Nat.pow 10 (e + 1))

/-- Count of decimal digits of a whole number. -/
def digitCount (n : Nat) : Nat := (Nat.toDigits 10 n).length

/-- The exponent `p` with `10 ^ (p - 1) ≤ numerator / denominator < 10 ^ p`. -/
def decimalMagnitude (numerator denominator : Nat) : Int :=
  if denominator ≤ numerator then digitCount (numerator / denominator)
  else
    let reciprocal := digitCount (denominator / numerator)
    if denominator ≤ numerator * Nat.pow 10 (reciprocal - 1) then 2 - (reciprocal : Int)
    else 1 - (reciprocal : Int)

/-- A decimal `digits * 10 ^ exponent`. -/
structure Decimal where
  digits : Nat
  exponent : Int
deriving DecidableEq, Inhabited

namespace Neighbourhood

/-- The decimal of the given last place next to the double, if one of its two neighbours on that
grid reads back. Of two that do the nearer is taken, the upper one if they are equally near. -/
def decimalAt? (n : Neighbourhood) (place : Int) : Option Decimal :=
  let unit := powerOfTen place
  let step := unit.1 * n.denominator
  let centre := n.centre * unit.2
  let below := centre / step
  let upperNearer := step ≤ 2 * (centre % step)
  match n.holds below unit, n.holds (below + 1) unit with
  | true, true => some ⟨if upperNearer then below + 1 else below, place⟩
  | true, false => some ⟨below, place⟩
  | false, true => some ⟨below + 1, place⟩
  | false, false => none

/-- Tries ever finer grids, `count` of them, starting with last place `place`. -/
def search (n : Neighbourhood) : Nat → Int → Decimal
  | 0, place => (n.decimalAt? place).getD ⟨0, 0⟩
  | count + 1, place => (n.decimalAt? place).getD (n.search count (place - 1))

end Neighbourhood

/-- The shortest decimal that reads back as `significand * 2 ^ exponent`, for a positive
significand. Seventeen digits always suffice. -/
def shortest (significand : Nat) (exponent : Int) : Decimal :=
  let n := Neighbourhood.ofBinary significand exponent
  n.search 17 (decimalMagnitude n.centre n.denominator - 1)

end EventScript.Number
