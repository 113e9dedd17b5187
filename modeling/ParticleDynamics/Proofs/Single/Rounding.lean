import Mathlib
import ParticleDynamics.Single

/-!
# Rounding without loss

Where a mantissa has nothing but zeros behind its leading 24 bits, rounding cuts these zeros off and
nothing else (`Single.round_of_trailing`). So a natural number with few enough bits before its last
zeros is converted to a number of single precision that has exactly its bits (`Single.ofNat_eq`).
-/

namespace ParticleDynamics

namespace Single

open Float.Model (Format UnpackedFloat totalExponent)
open Float.Model.UnpackedFloat (Sign ExtendedMantissa)

/-! ## Zeros behind a mantissa -/

/-- Where the leading bit of a word has to be moved. -/
theorem log2_shiftLeft {n : Nat} (hpos : 0 < n) (count : Nat) :
    (n <<< count).log2 = n.log2 + count := by
  have hlead := Nat.log2_self_le (Nat.ne_of_gt hpos)
  have htop := @Nat.lt_log2_self n
  rw [Nat.shiftLeft_eq, Nat.log2_eq_iff (Nat.ne_of_gt (Nat.mul_pos hpos (Nat.two_pow_pos _)))]
  constructor
  · rw [Nat.pow_add]
    exact Nat.mul_le_mul_right _ hlead
  · rw [Nat.add_right_comm, Nat.pow_add]
    exact Nat.mul_lt_mul_of_pos_right htop (Nat.two_pow_pos _)

/-- Zeros behind a mantissa leave no trace when they are shifted out. -/
theorem shiftRight_of_trailing (mantissa count : Nat) :
    (⟨mantissa * 2 ^ count, false, false⟩ : ExtendedMantissa) >>> count =
      ⟨mantissa, false, false⟩ := by
  change Nat.repeat ExtendedMantissa.shiftRightOne count _ = _
  induction count generalizing mantissa with
  | zero => rw [Nat.pow_zero, Nat.mul_one, Nat.repeat]
  | succ count ih =>
    have hdouble : mantissa * 2 ^ (count + 1) = mantissa * 2 * 2 ^ count := by
      rw [Nat.pow_succ, Nat.mul_comm (2 ^ count), Nat.mul_assoc]
    rw [hdouble, Nat.repeat, ih, ExtendedMantissa.shiftRightOne]
    simp

/-- A mantissa that has all its bits in place is not zero. -/
theorem pos_of_full {mantissa : Nat} (hfull : mantissa.log2 = 23) : 0 < mantissa := by
  refine Nat.pos_of_ne_zero fun hzero => ?_
  rw [hzero] at hfull
  cases hfull

/-- A mantissa that has all its bits in place is what remains of it with zeros behind. -/
theorem shiftToTargetExponent_of_trailing {mantissa : Nat} {exponent : Int}
    (hfull : mantissa.log2 = 23) (hexponent : -149 ≤ exponent) (count : Nat) :
    UnpackedFloat.shiftToTargetExponent Format.binary32 (mantissa * 2 ^ count) (exponent - count)
      .exact = (⟨mantissa, false, false⟩, exponent) := by
  have hpos := pos_of_full hfull
  have hlog : (mantissa * 2 ^ count).log2 = mantissa.log2 + count := by
    rw [← Nat.shiftLeft_eq, log2_shiftLeft hpos]
  have hbits : Format.binary32.mantissaBits = 24 := rfl
  have hleast : Format.binary32.minExponent = -149 := rfl
  have hmove : (Format.binary32.targetExponent
      (totalExponent (mantissa * 2 ^ count) (exponent - count)) - (exponent - count)).toNat =
        count := by
    simp only [Format.targetExponent, totalExponent, hbits, hleast, hlog, hfull]
    omega
  simp only [UnpackedFloat.shiftToTargetExponent, UnpackedFloat.shiftToExponent, hmove,
    ExtendedMantissa.ofMantissaAndAccuracy, shiftRight_of_trailing, Int.sub_add_cancel]

/-- **Zeros behind a mantissa that has all its bits in place are rounded away.** -/
theorem round_of_trailing (sign : Sign) {mantissa : Nat} {exponent : Int}
    (hfull : mantissa.log2 = 23) (hexponent : -149 ≤ exponent) (count : Nat) :
    ∃ hpos, UnpackedFloat.roundWithAccuracy Format.binary32 sign (mantissa * 2 ^ count)
      (exponent - count) .exact = .finite sign mantissa exponent hpos := by
  have hpos := pos_of_full hfull
  have hcut := shiftToTargetExponent_of_trailing hfull hexponent count
  -- the rounded mantissa is aligned once more, and stays
  have hstay := shiftToTargetExponent_of_trailing hfull hexponent 0
  rw [Nat.pow_zero, Nat.mul_one, Int.natCast_zero, Int.sub_zero] at hstay
  refine ⟨hpos, ?_⟩
  simp only [UnpackedFloat.roundWithAccuracy, hcut, ExtendedMantissa.roundedMantissa,
    ExtendedMantissa.accuracy, UnpackedFloat.Accuracy.roundToNearestEven, hstay]
  rw [dif_neg (Nat.ne_of_gt hpos)]

/-! ## Natural numbers -/

/-- A number of at most 24 bits with its leading bit moved into place. -/
theorem leading_of_lt {n : Nat} (hpos : 0 < n) (hlt : n < 2 ^ 24) :
    (n <<< (23 - n.log2)).log2 = 23 ∧ n <<< (23 - n.log2) * 2 ^ n.log2 = n * 2 ^ 23 := by
  have hlog : n.log2 < 24 := (Nat.log2_lt (Nat.ne_of_gt hpos)).2 hlt
  refine ⟨by rw [log2_shiftLeft hpos]; omega, ?_⟩
  rw [Nat.shiftLeft_eq, Nat.mul_assoc, ← Nat.pow_add, Nat.sub_add_cancel (by omega)]

/-- **A natural number is converted without loss** when some mantissa that has all its bits in place
has the same bits, up to zeros at the end. -/
theorem ofNat_eq {n mantissa : Nat} (hpos : 0 < n) (hfull : mantissa.log2 = 23)
    (hmantissa : mantissa * 2 ^ n.log2 = n * 2 ^ 23) :
    ∃ hpos, UnpackedFloat.ofNat Format.binary32 n =
      .finite .positive mantissa (n.log2 - 23) hpos := by
  have hbits : Format.binary32.mantissaBits = 24 := rfl
  have hleast : Format.binary32.minExponent = -149 := rfl
  have hgreater : compare (n : Int) 0 = .gt := Int.compare_eq_gt.2 (by omega)
  have hmove : ((0 : Int) - Format.binary32.targetExponent (totalExponent n 0)).toNat =
      23 - n.log2 := by
    simp only [Format.targetExponent, totalExponent, hbits, hleast]
    omega
  -- the leading bit is moved up to its place, or is beyond it already
  have hmoved : n <<< (23 - n.log2) = mantissa * 2 ^ (n.log2 - 23) := by
    refine Nat.eq_of_mul_eq_mul_right (Nat.two_pow_pos (min n.log2 23)) ?_
    rw [Nat.shiftLeft_eq, Nat.mul_assoc, Nat.mul_assoc, ← Nat.pow_add, ← Nat.pow_add,
      show 23 - n.log2 + min n.log2 23 = 23 by omega,
      show n.log2 - 23 + min n.log2 23 = n.log2 by omega, hmantissa]
  have hexponent : (0 : Int) - (23 - n.log2 : Nat) = n.log2 - 23 - (n.log2 - 23 : Nat) := by omega
  obtain ⟨hpos, hround⟩ := round_of_trailing .positive hfull
    (show (-149 : Int) ≤ n.log2 - 23 by omega) (n.log2 - 23)
  refine ⟨hpos, ?_⟩
  simp only [UnpackedFloat.ofNat, UnpackedFloat.ofInt, UnpackedFloat.normalize, hgreater,
    Int.toNat_natCast, UnpackedFloat.round, UnpackedFloat.decreaseExponent, hmove, hmoved,
    hexponent, hround]

end Single

end ParticleDynamics
