import EventScript.Number.Shortest

/-!
# Numbers as text

A number is written with the fewest digits that read back, always positionally and with no point if
it is whole (`display`). Text is read back by `ofDigits`, for the digits of a literal, and by
`read?`, which also takes a sign, an exponent, infinities and NaN.
-/

namespace EventScript.Number

/-- A decimal in positional notation. -/
def positional (decimal : Decimal) : String :=
  let digits := Nat.toDigits 10 decimal.digits
  match decimal.exponent with
  | .ofNat e => String.ofList (digits ++ List.replicate e '0')
  | .negSucc e =>
    let places := e + 1
    let padded := List.replicate (places + 1 - digits.length) '0' ++ digits
    let whole := padded.length - places
    String.ofList (padded.take whole ++ '.' :: padded.drop whole)

/-- Drops the zeros at the end of the digits. The bound `count` is at least their number. -/
def Decimal.trim : Nat → Decimal → Decimal
  | 0, decimal => decimal
  | count + 1, decimal =>
    if decimal.digits ≠ 0 ∧ decimal.digits % 10 = 0 then
      trim count ⟨decimal.digits / 10, decimal.exponent + 1⟩
    else decimal

/-- The text of a number. -/
def display (x : Float) : String :=
  match Exact.ofFloat x with
  | .notANumber => "NaN"
  | .infinite negative => if negative then "-inf" else "inf"
  | .finite negative significand exponent =>
    let magnitude :=
      if significand = 0 then "0" else positional ((shortest significand exponent).trim 20)
    if negative then "-" ++ magnitude else magnitude

/-- The double nearest to `digits / 10 ^ places`. -/
def ofDigits (digits places : Nat) : Float :=
  Float.ofScientific digits true places

/-- The number that a run of decimal digits denotes. -/
def digitsValue (digits : List Char) : Nat :=
  digits.foldl (fun value digit => value * 10 + (digit.toNat - '0'.toNat)) 0

/-- The double nearest to the decimal with the given digits before and after the point. -/
def ofLiteral (whole fraction : List Char) : Float :=
  ofDigits (digitsValue (whole ++ fraction)) fraction.length

/-- The double nearest to `digits * 10 ^ exponent`. Beyond the range of doubles the exponent is cut
off, which changes nothing but the time to compute. -/
def ofDecimal (digits : Nat) (exponent : Int) : Float :=
  let size : Int := digitCount digits
  if digits = 0 then 0
  else if 400 < exponent + size then 1 / 0
  else if exponent + size < -400 then 0
  else match exponent with
    | .ofNat e => Float.ofScientific digits false e
    | .negSucc e => Float.ofScientific digits true (e + 1)

/-- Reads an optional sign. -/
def readSign : List Char → Bool × List Char
  | '-' :: rest => (true, rest)
  | '+' :: rest => (false, rest)
  | rest => (false, rest)

/-- Reads the exponent part of a number: nothing, or `e` with an optional sign and digits. -/
def readExponent? : List Char → Option Int
  | [] => some 0
  | mark :: rest =>
    let (negative, digits) := readSign rest
    if (mark = 'e' ∨ mark = 'E') ∧ digits ≠ [] ∧ digits.all Char.isDigit then
      let size : Int := digitsValue digits
      some (if negative then -size else size)
    else none

/-- Reads an unsigned number: digits with an optional point and exponent, an infinity or NaN. -/
def readUnsigned? (chars : List Char) : Option Float :=
  let word := chars.map Char.toLower
  if word = "inf".toList ∨ word = "infinity".toList then some (1 / 0)
  else if word = "nan".toList then some (0 / 0)
  else
    let whole := chars.takeWhile Char.isDigit
    let afterWhole := chars.dropWhile Char.isDigit
    let (fraction, rest) := match afterWhole with
      | '.' :: rest => (rest.takeWhile Char.isDigit, rest.dropWhile Char.isDigit)
      | rest => ([], rest)
    if whole = [] ∧ fraction = [] then none
    else (readExponent? rest).map fun exponent =>
      ofDecimal (digitsValue (whole ++ fraction)) (exponent - fraction.length)

/-- Reads a number in any of its written forms. -/
def read? (text : String) : Option Float :=
  let (negative, rest) := readSign text.toList
  (readUnsigned? rest).map fun x => if negative then -x else x

end EventScript.Number
