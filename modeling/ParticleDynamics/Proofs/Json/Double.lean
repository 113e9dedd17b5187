import Mathlib.Tactic.NormNum
import ParticleDynamics.Json.Number
import ParticleDynamics.Proofs.Decimal.Rounding

/-!
# How close the way through double precision comes

A number that is not whole is read as a double by one multiplication or division by a power of ten.
Power and result are rounded, so the double may be off by one part in `2 ^ 51` for the powers that
single precision needs (`Literal.scaledDouble_near`). Nothing is rounded where the power is a double
itself, and the number one as well.
-/

namespace ParticleDynamics

open BinaryFormat

namespace Literal

/-! ## Doubles -/

/-- Numbers well inside the range of double precision. -/
def Moderate (v : ℚ) : Prop := 2 ^ (-255 : Int) ≤ v ∧ v < 2 ^ (255 : Int)

/-- Such numbers are rounded to a double that follows them. -/
theorem exists_double {numerator denominator : Nat} {v : ℚ} (hden : 0 < denominator)
    (hv : (numerator : ℚ) / denominator = v) (h : Moderate v) :
    ∃ x, double.nearest numerator denominator = some x ∧ Follows double v x :=
  nearest_follows (by decide) hden hv ((two_zpow_le (by decide)).trans h.1)
    (h.2.trans_le (two_zpow_le (by decide)))

/-- A significand that fits is a double. -/
theorem exists_double_of_lt {n : Nat} (hpos : 0 < n) (hlt : n < 2 ^ 53) :
    ∃ x, double.nearest n 1 = some x ∧ value x = n := by
  have hone : (1 : ℚ) ≤ n := by exact_mod_cast hpos
  have hlt' : (n : ℚ) < 2 ^ 53 := by exact_mod_cast hlt
  have hmoderate : Moderate n := by
    refine ⟨le_trans ?_ hone, hlt'.trans_le ?_⟩ <;> norm_num
  have hv : (n : ℚ) / (1 : Nat) = n := by rw [Nat.cast_one, div_one]
  obtain ⟨x, hx, hfollows⟩ := exists_double one_pos hv hmoderate
  refine ⟨x, hx, hfollows.exact n 0 hlt (by decide) ?_⟩
  rw [value, zpow_zero, mul_one]

theorem ten_pow_le {power : Nat} (h : power ≤ 60) : (10 : ℚ) ^ power ≤ 2 ^ 200 :=
  (pow_le_pow_right₀ (by norm_num) h).trans (by norm_num)

/-- The doubles of the powers of ten that single precision needs. -/
theorem follows_tenTo {power : Nat} (h : power ≤ 60) :
    Follows double (10 ^ power) (tenTo power) := by
  have hone : (1 : ℚ) ≤ 10 ^ power := one_le_pow₀ (by norm_num)
  have hle := ten_pow_le h
  have hmoderate : Moderate ((10 : ℚ) ^ power) := by
    refine ⟨le_trans ?_ hone, hle.trans_lt ?_⟩ <;> norm_num
  have hv : ((Nat.pow 10 power : Nat) : ℚ) / (1 : Nat) = 10 ^ power := by
    rw [Nat.cast_one, div_one, Nat.pow_eq, Nat.cast_pow, Nat.cast_ofNat]
  obtain ⟨x, hx, hfollows⟩ := exists_double one_pos hv hmoderate
  rw [tenTo, hx]
  exact hfollows

/-- Powers of ten that are doubles. -/
theorem value_tenTo {power : Nat} (h : power ≤ 22) : value (tenTo power) = 10 ^ power := by
  refine (follows_tenTo (by omega)).exact (5 ^ power) power ?_ ?_ ?_
  · exact (Nat.pow_le_pow_right (by decide) h).trans_lt (by decide)
  · exact (by decide : (-1074 : Int) ≤ 0).trans (Int.natCast_nonneg power)
  · rw [value, zpow_natCast]
    push_cast
    rw [← mul_pow]
    norm_num

/-- How a power of ten differs from its double. -/
theorem tenTo_bounds {power : Nat} (h : power ≤ 60) :
    |value (tenTo power) - 10 ^ power| ≤ 10 ^ power / 2 ^ 53 ∧
      1 / 2 ≤ value (tenTo power) ∧ value (tenTo power) ≤ 2 ^ 201 := by
  have hclose := (follows_tenTo h).close
  have hone : (1 : ℚ) ≤ 10 ^ power := one_le_pow₀ (by norm_num)
  have hle := ten_pow_le h
  obtain ⟨hlo, hhi⟩ := abs_le.1 hclose
  rw [show double.precision = 53 by rfl] at hlo hhi hclose
  refine ⟨hclose, ?_, ?_⟩ <;> linarith

/-! ## One operation -/

/-- A double is near the result of an operation with a power of ten, and is the result if that is a
double and the power as well. -/
structure Near (power : Nat) (v : ℚ) (z : Nat × Int) : Prop where
  close : |value z - v| ≤ v / 2 ^ 51
  exact : power ≤ 22 → ∀ m q, m < 2 ^ 53 → -1074 ≤ q → v = value (m, q) → value z = v

variable {x : Nat × Int} {n power : Nat}

theorem value_product (x y : Nat × Int) :
    ((x.1 * y.1 * Nat.pow 2 (x.2 + y.2).toNat : Nat) : ℚ) /
      (Nat.pow 2 (-(x.2 + y.2)).toNat : Nat) = value x * value y := by
  have hpow : (2 : ℚ) ^ (x.2 + y.2) = 2 ^ x.2 * 2 ^ y.2 := zpow_add₀ two_ne_zero _ _
  rw [zpow_eq_div two_ne_zero] at hpow
  simp only [Nat.pow_eq, value]
  push_cast
  rw [mul_div_assoc, hpow]
  ring

theorem value_quotient (x y : Nat × Int) :
    ((x.1 * Nat.pow 2 (x.2 - y.2).toNat : Nat) : ℚ) /
      (y.1 * Nat.pow 2 (-(x.2 - y.2)).toNat : Nat) = value x / value y := by
  have hpow : (2 : ℚ) ^ (x.2 - y.2) = 2 ^ x.2 / 2 ^ y.2 := zpow_sub₀ two_ne_zero _ _
  rw [zpow_eq_div two_ne_zero] at hpow
  simp only [Nat.pow_eq, value]
  push_cast
  rw [mul_div_mul_comm, hpow, div_mul_div_comm]

/-- Rounding the result of an operation adds to what it is off because of the power. -/
theorem Near.of_follows {v w : ℚ} {z : Nat × Int} (hfollows : Follows double w z) (hpos : 0 ≤ v)
    (hclose : |w - v| ≤ v / 2 ^ 52) (hsame : power ≤ 22 → w = v) : Near power v z := by
  refine ⟨?_, fun hpower m q hm hq hv => ?_⟩
  · have hround := hfollows.close
    have htriangle := abs_sub_le (value z) w v
    have hw := (abs_le.1 hclose).2
    rw [show double.precision = 53 by rfl] at hround
    linarith
  · rw [← hsame hpower] at hv ⊢
    exact hfollows.exact m q hm hq hv

section Powers

variable (hpos : 0 < n) (hlt : n < 2 ^ 53) (hpower : power ≤ 60)

include hpos hlt hpower

/-- A significand times the double of a power of ten. -/
theorem moderate_mul : Moderate (n * value (tenTo power)) := by
  obtain ⟨-, hlo, hhi⟩ := tenTo_bounds hpower
  have hone : (1 : ℚ) ≤ n := by exact_mod_cast hpos
  have hlt' : (n : ℚ) < 2 ^ 53 := by exact_mod_cast hlt
  have hlower : (1 : ℚ) * (1 / 2) ≤ n * value (tenTo power) :=
    mul_le_mul hone hlo (by norm_num) (by linarith)
  have hupper : n * value (tenTo power) ≤ (2 : ℚ) ^ 53 * 2 ^ 201 :=
    mul_le_mul hlt'.le hhi (by linarith) (by norm_num)
  refine ⟨le_trans ?_ hlower, hupper.trans_lt ?_⟩ <;> norm_num

/-- A significand divided by the double of a power of ten. -/
theorem moderate_div : Moderate (n / value (tenTo power)) := by
  obtain ⟨-, hlo, hhi⟩ := tenTo_bounds hpower
  have hone : (1 : ℚ) ≤ n := by exact_mod_cast hpos
  have hlt' : (n : ℚ) < 2 ^ 53 := by exact_mod_cast hlt
  have htpos : 0 < value (tenTo power) := by linarith
  refine ⟨?_, ?_⟩
  · rw [le_div_iff₀ htpos]
    refine (mul_le_mul_of_nonneg_left hhi (by positivity)).trans (le_trans ?_ hone)
    norm_num
  · rw [div_lt_iff₀ htpos]
    refine hlt'.trans_le (le_trans ?_ (mul_le_mul_of_nonneg_left hlo (by positivity)))
    norm_num

omit hpos hlt

/-- The power of ten that was rounded, as a factor. -/
theorem abs_mul_sub_le (n : Nat) :
    |n * value (tenTo power) - n * 10 ^ power| ≤ n * 10 ^ power / 2 ^ 52 := by
  obtain ⟨hclose, -, -⟩ := tenTo_bounds hpower
  have hnonneg : (0 : ℚ) ≤ n * 10 ^ power := by positivity
  have hmul := mul_le_mul_of_nonneg_left hclose (Nat.cast_nonneg n : (0 : ℚ) ≤ n)
  rw [← mul_sub, abs_mul, Nat.abs_cast]
  linarith

/-- The power of ten that was rounded, as a divisor. -/
theorem abs_div_sub_le (n : Nat) :
    |n / value (tenTo power) - n / 10 ^ power| ≤ n / 10 ^ power / 2 ^ 52 := by
  obtain ⟨hclose, hlo, -⟩ := tenTo_bounds hpower
  have hten : (0 : ℚ) < 10 ^ power := by positivity
  have htpos : 0 < value (tenTo power) := by linarith
  have hdiff : n / value (tenTo power) - n / 10 ^ power =
      n / 10 ^ power * ((10 ^ power - value (tenTo power)) / value (tenTo power)) := by
    field_simp
  have hratio : |(10 ^ power - value (tenTo power)) / value (tenTo power)| ≤ 1 / 2 ^ 52 := by
    have hhalf := (abs_le.1 hclose).1
    rw [abs_div, abs_sub_comm, abs_of_pos htpos, div_le_iff₀ htpos]
    linarith
  rw [hdiff, abs_mul, abs_of_nonneg (by positivity), div_eq_mul_one_div (_ / _)]
  exact mul_le_mul_of_nonneg_left hratio (by positivity)

end Powers

/-- Multiplying by a power of ten. -/
theorem scaleUp_near (hx : value x = n) (hpos : 0 < n) (hlt : n < 2 ^ 53) (hpower : power ≤ 60) :
    ∃ z, scaleUp x power = some z ∧ Near power (n * 10 ^ power) z := by
  have hvalue := value_product x (tenTo power)
  rw [hx] at hvalue
  obtain ⟨z, hz, hfollows⟩ :=
    exists_double (Nat.pow_pos two_pos) hvalue (moderate_mul hpos hlt hpower)
  refine ⟨z, ?_, .of_follows hfollows (by positivity) (abs_mul_sub_le hpower n) fun hexact => ?_⟩
  · rw [scaleUp, if_pos (hpower.trans (by decide))]
    exact hz
  · rw [value_tenTo hexact]

/-- Dividing by a power of ten. -/
theorem scaleDown_near (hx : value x = n) (hpos : 0 < n) (hlt : n < 2 ^ 53) (hpower : power ≤ 60) :
    ∃ z, scaleDown x power = some z ∧ Near power (n / 10 ^ power) z := by
  have hdenominator : 0 < (tenTo power).1 :=
    significand_pos (by linarith [(tenTo_bounds hpower).2.1])
  have hvalue := value_quotient x (tenTo power)
  rw [hx] at hvalue
  obtain ⟨z, hz, hfollows⟩ := exists_double (Nat.mul_pos hdenominator (Nat.pow_pos two_pos)) hvalue
    (moderate_div hpos hlt hpower)
  refine ⟨z, ?_, .of_follows hfollows (by positivity) (abs_div_sub_le hpower n) fun hexact => ?_⟩
  · rw [scaleDown, if_pos (hpower.trans (by decide))]
    exact hz
  · rw [value_tenTo hexact]

/-- **The double that a literal is read as is near what its leading digits denote.** The leading
digits fit a double, so all that is rounded are the power of ten and its product or quotient with
them, and the bound grows with the exponent. -/
theorem scaledDouble_near {l : Literal} {k : Int} (hleading : l.leading = (n, k)) (hpos : 0 < n)
    (hlt : n < 2 ^ 53) (hk : k.natAbs ≤ 60) :
    ∃ z, l.scaledDouble = some z ∧ Near k.natAbs (n * 10 ^ k) z := by
  obtain ⟨x, hdouble, hx⟩ := exists_double_of_lt hpos hlt
  have hscaled : l.scaledDouble =
      if 0 ≤ k then scaleUp x k.toNat else scaleDown x (-k).toNat := by
    simp only [scaledDouble, hleading, hdouble, Option.bind_eq_bind, Option.bind_some]
  rw [hscaled]
  split
  next hnonneg =>
    obtain ⟨power, rfl⟩ := Int.eq_ofNat_of_zero_le hnonneg
    rw [zpow_natCast]
    exact scaleUp_near hx hpos hlt hk
  next hneg =>
    obtain ⟨power, hpower⟩ := Int.eq_ofNat_of_zero_le (by omega : 0 ≤ -k)
    obtain rfl : k = -power := by omega
    rw [zpow_neg, zpow_natCast, ← div_eq_mul_inv, neg_neg, Int.natAbs_neg]
    exact scaleDown_near hx hpos hlt (by omega)

end Literal

end ParticleDynamics
