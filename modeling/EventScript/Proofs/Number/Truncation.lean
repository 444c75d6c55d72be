import Mathlib
import EventScript.Number.Exact

/-!
# Truncation

A double that is neither infinite nor NaN stands for a rational number (`value?`). What `truncate?`
gives is this number without its fraction (`truncate?_eq`).
-/

namespace EventScript.Number

open Float.Model (Format UnpackedFloat)
open Float.Model.UnpackedFloat

/-- The rational number that a double stands for. Infinities and NaN stand for none. -/
def value? (x : Float) : Option ℚ :=
  match x.toModel.unpack with
  | .finite sign mantissa exponent _ => some (sign.apply mantissa * 2 ^ exponent)
  | .zero _ => some 0
  | .infinity _ | .notANumber => none

/-- A rational number without its fraction. -/
def towardZero (value : ℚ) : ℤ := if value < 0 then ⌈value⌉ else ⌊value⌋

section Fields

variable (bits : BitVec 64)

/-- The fraction field is the lowest 52 bits. -/
theorem toNat_unpackMantissa : (@unpackMantissa .binary64 bits).toNat = bits.toNat % 2 ^ 52 := by
  unfold unpackMantissa
  rw [BitVec.toNat_cast, BitVec.extractLsb_toNat, Nat.shiftRight_zero]
  rfl

/-- The exponent field is the next 11 bits. -/
theorem toNat_unpackExponent :
    (@unpackExponent .binary64 bits).toNat = bits.toNat / 2 ^ 52 % 2 ^ 11 := by
  unfold unpackExponent
  rw [BitVec.toNat_cast, BitVec.extractLsb_toNat, Nat.shiftRight_eq_div_pow]
  rfl

/-- The sign is the highest bit. -/
theorem toNat_unpackSign : (@unpackSign .binary64 bits).toNat = bits.toNat / 2 ^ 63 := by
  have one : bits.toNat / 2 ^ 63 < 2 := by
    have small := bits.isLt
    omega
  unfold unpackSign
  rw [BitVec.toNat_cast, BitVec.extractLsb_toNat, Nat.shiftRight_eq_div_pow]
  exact Nat.mod_eq_of_lt one

/-- The sign is the first bit. -/
theorem ofBitVec_unpackSign :
    Sign.ofBitVec (@unpackSign .binary64 bits) =
      if bits.toNat / 2 ^ 63 == 1 then .negative else .positive := by
  have one : bits.toNat / 2 ^ 63 < 2 := by
    have small := bits.isLt
    omega
  have same : @unpackSign .binary64 bits = 0#1 ↔ bits.toNat / 2 ^ 63 = 0 := by
    rw [← toNat_unpackSign, ← BitVec.toNat_inj]
    rfl
  unfold Sign.ofBitVec
  by_cases first : bits.toNat / 2 ^ 63 = 0
  · rw [if_pos (same.mpr first), first]
    rfl
  · have set : bits.toNat / 2 ^ 63 = 1 := by omega
    rw [if_neg fun clear => first (same.mp clear), set]
    rfl

end Fields

/-- The sign of a double as it is read off. -/
def Exact.signOf (negative : Bool) : Sign := if negative then .negative else .positive

/-- What is read off a double, unpacked. -/
def Exact.unpacked : Exact → UnpackedFloat
  | .notANumber => .notANumber
  | .infinite negative => .infinity (signOf negative)
  | .finite negative significand exponent =>
    if positive : 0 < significand then .finite (signOf negative) significand exponent positive
    else .zero (signOf negative)

/-- Finite numbers with the same sign, significand and exponent are the same. -/
theorem finite_congr {sign : Sign} {first second : ℕ} {low high : ℤ} {positive : 0 < first}
    {positive' : 0 < second} (significand : first = second) (exponent : low = high) :
    UnpackedFloat.finite sign first low positive = .finite sign second high positive' := by
  subst significand exponent
  rfl

/-- What is read off a double is what it is. -/
theorem Exact.unpacked_ofFloat (x : Float) : (ofFloat x).unpacked = x.toModel.unpack := by
  have given : x.toBits.toNat = x.toModel.toBits.toBitVec.toNat := rfl
  have unpacks : x.toModel.unpack = unpack .binary64 x.toModel.toBits.toBitVec := rfl
  rw [unpacks]
  unfold ofFloat
  simp only [Nat.pow_eq]
  rw [given]
  generalize x.toModel.toBits.toBitVec = bits
  have top : @unpackExponent .binary64 bits = -1#11 ↔ bits.toNat / 2 ^ 52 % 2 ^ 11 = 2047 := by
    rw [← toNat_unpackExponent, ← BitVec.toNat_inj]
    rfl
  have bottom : @unpackExponent .binary64 bits = 0#11 ↔ bits.toNat / 2 ^ 52 % 2 ^ 11 = 0 := by
    rw [← toNat_unpackExponent, ← BitVec.toNat_inj]
    rfl
  have empty : @unpackMantissa .binary64 bits = 0#52 ↔ bits.toNat % 2 ^ 52 = 0 := by
    rw [← toNat_unpackMantissa, ← BitVec.toNat_inj]
    rfl
  have sign : Sign.ofBitVec (@unpackSign .binary64 bits) = signOf (bits.toNat / 2 ^ 63 == 1) :=
    ofBitVec_unpackSign bits
  have bias : (Format.binary64.exponentBias : ℤ) = 1023 := rfl
  unfold unpack
  dsimp only
  rw [sign, bias, toNat_unpackExponent]
  -- The cases are those of the format: all bits of the exponent are set, none is, or some are.
  by_cases special : bits.toNat / 2 ^ 52 % 2 ^ 11 = 2047
  · rw [if_pos special, if_pos (top.mpr special)]
    by_cases none : bits.toNat % 2 ^ 52 = 0
    · rw [if_pos none, if_pos (empty.mpr none)]
      rfl
    · rw [if_neg none, if_neg fun vector => none (empty.mp vector)]
      rfl
  · rw [if_neg special, if_neg fun vector => special (top.mp vector)]
    by_cases small : bits.toNat / 2 ^ 52 % 2 ^ 11 = 0
    · rw [if_pos small, if_pos (bottom.mpr small), small]
      by_cases none : bits.toNat % 2 ^ 52 = 0
      · rw [dif_pos (empty.mpr none), none]
        rfl
      · rw [dif_neg fun vector => none (empty.mp vector), unpacked,
          dif_pos (Nat.pos_of_ne_zero none)]
        exact finite_congr (toNat_unpackMantissa bits).symm (by omega)
    · rw [if_neg small, if_neg fun vector => small (bottom.mp vector), unpacked, dif_pos (by omega)]
      refine finite_congr ?_ (by omega)
      have below := (@unpackMantissa .binary64 bits).isLt
      rw [BitVec.toNat_append, ← toNat_unpackMantissa]
      show _ = 2 ^ 52 ||| _
      rw [Nat.or_comm, Nat.or_two_pow_eq_add_of_lt below, Nat.add_comm]

/-- The quotient without its fraction is the largest whole number below. -/
theorem Exact.floor_quotient (significand : ℕ) (exponent : ℤ) :
    ⌊(significand : ℚ) * 2 ^ exponent⌋ =
      ((quotient significand exponent).1 / (quotient significand exponent).2 : ℕ) := by
  cases exponent with
  | ofNat e =>
    have whole : (significand : ℚ) * 2 ^ (Int.ofNat e) = (significand * 2 ^ e : ℕ) := by
      push_cast
      rw [Int.ofNat_eq_natCast, zpow_natCast]
    rw [whole, Int.floor_natCast, quotient, Nat.div_one]
    rfl
  | negSucc e =>
    have part : (significand : ℚ) * 2 ^ (Int.negSucc e) =
      (significand : ℚ) / (2 ^ (e + 1) : ℕ) := by
      push_cast
      rw [zpow_negSucc, div_eq_mul_inv]
    rw [part, Rat.floor_natCast_div_natCast]
    rfl

/-- Of what is not negative, rounding towards zero takes the floor. -/
theorem towardZero_of_nonneg {value : ℚ} (nonneg : 0 ≤ value) : towardZero value = ⌊value⌋ :=
  if_neg (not_lt.mpr nonneg)

/-- Of the negative of such a number it gives the negated floor. -/
theorem towardZero_neg {value : ℚ} (nonneg : 0 ≤ value) : towardZero (-value) = -⌊value⌋ := by
  unfold towardZero
  split
  · exact Int.ceil_neg
  · have zero : value = 0 := by linarith
    rw [zero]
    rfl

/-- Truncation gives the number that a double stands for without its fraction. -/
theorem truncate?_eq (x : Float) : truncate? x = (value? x).map towardZero := by
  unfold value? truncate?
  rw [← Exact.unpacked_ofFloat]
  cases Exact.ofFloat x with
  | notANumber | infinite => rfl
  | finite negative significand exponent =>
    have nonneg : (0 : ℚ) ≤ significand * 2 ^ exponent := by positivity
    dsimp only [Exact.unpacked]
    rw [← Exact.floor_quotient]
    by_cases positive : 0 < significand
    · rw [dif_pos positive]
      cases negative with
      | false => exact congrArg some (towardZero_of_nonneg nonneg).symm
      | true =>
        have opposite : ((Sign.negative.apply significand : ℤ) : ℚ) * 2 ^ exponent =
            -(significand * 2 ^ exponent) := by
          rw [Sign.apply, Int.cast_neg, neg_mul, Int.cast_natCast]
        exact congrArg some ((congrArg towardZero opposite).trans (towardZero_neg nonneg)).symm
    · obtain rfl : significand = 0 := Nat.eq_zero_of_not_pos positive
      rw [dif_neg positive, Nat.cast_zero, zero_mul]
      cases negative <;> rfl

end EventScript.Number
