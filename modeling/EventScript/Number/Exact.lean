/-!
# The exact value of a double

A finite double is a whole number times a power of two. `Exact.ofFloat` reads that off its bits,
so that printing, rounding and truncation are questions about whole numbers.
-/

namespace EventScript.Number

/-- The number that a double stands for. -/
inductive Exact where
  | notANumber
  | infinite (negative : Bool)
  /-- `significand * 2 ^ exponent`, negated if `negative`; zero keeps its sign. -/
  | finite (negative : Bool) (significand : Nat) (exponent : Int)
deriving DecidableEq, Inhabited

namespace Exact

/-- Reads sign, exponent and fraction off the bits; a zero exponent field marks a subnormal. -/
def ofFloat (x : Float) : Exact :=
  let bits := x.toBits.toNat
  let negative := bits / Nat.pow 2 63 == 1
  let field : Nat := bits / Nat.pow 2 52 % Nat.pow 2 11
  let fraction := bits % Nat.pow 2 52
  if field = 2047 then
    if fraction = 0 then infinite negative else notANumber
  else if field = 0 then finite negative fraction (-1074)
  else finite negative (Nat.pow 2 52 + fraction) ((field : Int) - 1075)

/-- `significand * 2 ^ exponent` as a quotient of whole numbers. -/
def quotient (significand : Nat) (exponent : Int) : Nat × Nat :=
  match exponent with
  | .ofNat e => (significand * Nat.pow 2 e, 1)
  | .negSucc e => (significand, Nat.pow 2 (e + 1))

end Exact

/-- The whole number nearest to `x` on the side of zero; none for infinities and NaN. -/
def truncate? (x : Float) : Option Int :=
  match Exact.ofFloat x with
  | .notANumber => none
  | .infinite _ => none
  | .finite negative significand exponent =>
    let (numerator, denominator) := Exact.quotient significand exponent
    let size : Int := (numerator / denominator : Nat)
    some (if negative then -size else size)

/-- The whole number nearest to `numerator / denominator`; a half goes to the even neighbour. -/
def roundHalfEven (numerator denominator : Nat) : Nat :=
  let below := numerator / denominator
  let rest := 2 * (numerator % denominator)
  if rest < denominator then below
  else if rest = denominator then below + below % 2
  else below + 1

end EventScript.Number
