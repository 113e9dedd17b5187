import Mathlib.Algebra.Order.Field.Power
import Mathlib.Data.Rat.Cast.Order
import Mathlib.Tactic.FieldSimp
import Mathlib.Tactic.Linarith
import Mathlib.Tactic.Positivity
import Mathlib.Tactic.Qify
import Mathlib.Tactic.Ring
import ParticleDynamics.Decimal.Nearest

/-!
# What rounding to binary gives

The numbers that round to `m * 2 ^ q` form an interval: half a step of the format above it and half
a step below, where the step below a power of two is half as wide. The ends belong to it when `m` is
even (`BinaryFormat.RoundsTo`). Rounding follows these intervals (`BinaryFormat.nearest_eq`).

Inside the range of a format, the result is as close as its precision allows, and a number of the
format is not changed (`BinaryFormat.nearest_follows`).
-/

namespace ParticleDynamics

/-! ## Rounding to whole numbers -/

/-- Rounding to a whole number moves by a half at most. -/
theorem divideToEven_close (n : Nat) {d : Nat} (hd : 0 < d) :
    2 * n ≤ (2 * divideToEven n d + 1) * d ∧ 2 * (divideToEven n d * d) ≤ 2 * n + d := by
  have hn := Nat.div_add_mod n d
  have hlt := Nat.mod_lt n hd
  simp only [divideToEven]
  generalize n / d = a at *
  generalize n % d = r at *
  subst hn
  split
  · constructor <;> linarith
  · split
    · constructor <;> linarith
    · rcases Nat.mod_two_eq_zero_or_one a with h | h <;> rw [h] <;> constructor <;> linarith

/-- The nearest whole number is the one that is at most half away, the even one in a tie. -/
theorem divideToEven_eq {n d m : Nat} (hd : 0 < d) (hlo : 2 * (m * d) ≤ 2 * n + d)
    (hhi : 2 * n ≤ (2 * m + 1) * d)
    (hodd : m % 2 = 1 → 2 * (m * d) < 2 * n + d ∧ 2 * n < (2 * m + 1) * d) :
    divideToEven n d = m := by
  have hn := Nat.div_add_mod n d
  have hlt := Nat.mod_lt n hd
  simp only [divideToEven]
  generalize n / d = a at *
  generalize n % d = r at *
  subst hn
  have hge : m < a + 2 := by
    by_contra hnot
    have : (a + 2) * d ≤ m * d := Nat.mul_le_mul_right d (by omega)
    linarith
  have hle : a < m + 1 := by
    by_contra hnot
    have : (m + 1) * d ≤ a * d := Nat.mul_le_mul_right d (by omega)
    linarith
  obtain rfl | rfl : m = a ∨ m = a + 1 := by omega
  · have hlow : 2 * r ≤ d := by linarith
    have hodd' : m % 2 = 1 → 2 * r < d := fun h => by linarith [(hodd h).2]
    split <;> [rfl; split] <;> omega
  · have hhigh : d ≤ 2 * r := by linarith
    have hodd' : a % 2 = 0 → d < 2 * r := fun h => by linarith [(hodd (by omega)).1]
    split <;> [omega; split] <;> omega

namespace BinaryFormat

/-- The number that a significand and an exponent stand for. -/
def value (x : Nat × Int) : ℚ := x.1 * 2 ^ x.2

theorem two_zpow_pos (q : Int) : (0 : ℚ) < 2 ^ q := zpow_pos two_pos q

theorem two_zpow_succ (q : Int) : (2 : ℚ) ^ (q + 1) = 2 * 2 ^ q := by
  rw [zpow_add_one₀ two_ne_zero, mul_comm]

theorem two_zpow_le {q q' : Int} (h : q ≤ q') : (2 : ℚ) ^ q ≤ 2 ^ q' :=
  zpow_le_zpow_right₀ one_le_two h

/-! ## Exponents -/

/-- A power with an integer exponent as a quotient of two powers with natural ones. -/
theorem zpow_eq_div {base : ℚ} (h : base ≠ 0) (q : Int) :
    base ^ q = base ^ q.toNat / base ^ (-q).toNat := by
  rw [← zpow_natCast, ← zpow_natCast, ← zpow_sub₀ h]
  congr 1
  omega

theorem scaled_pos (numerator : Nat) {denominator : Nat} (h : 0 < denominator) (q : Int) :
    0 < (scaled numerator denominator q).2 :=
  Nat.mul_pos h (Nat.pow_pos two_pos)

/-- Scaling divides by a power of two. -/
theorem scaled_eq (numerator denominator : Nat) (q : Int) :
    ((scaled numerator denominator q).1 : ℚ) / (scaled numerator denominator q).2 =
      numerator / denominator / 2 ^ q := by
  rw [zpow_eq_div two_ne_zero]
  simp only [scaled, Nat.pow_eq]
  push_cast
  field_simp

variable {format : BinaryFormat} {numerator denominator : Nat} {v : ℚ}

/-- Where the exponent of a positive number lies. -/
structure Scale (format : BinaryFormat) (v : ℚ) (q : Int) : Prop where
  least_le : format.least ≤ q
  lt : v < 2 ^ (q + format.precision)
  le : 2 ^ (q + format.precision - 1) ≤ v ∨ q = format.least

theorem Scale.unique {q q' : Int} (h : Scale format v q) (h' : Scale format v q') : q = q' := by
  have key {q q' : Int} (h : Scale format v q) (h' : Scale format v q') : q' ≤ q := by
    rcases h'.le with hle | rfl
    · have := (zpow_lt_zpow_iff_right₀ one_lt_two).1 (hle.trans_lt h.lt)
      omega
    · exact h.least_le
  exact le_antisymm (key h' h) (key h h')

theorem log2_bounds {n : Nat} (h : 0 < n) : (2 : ℚ) ^ (n.log2 : Int) ≤ n ∧
    (n : ℚ) < 2 ^ ((n.log2 : Int) + 1) := by
  constructor
  · exact_mod_cast Nat.log2_self_le h.ne'
  · exact_mod_cast Nat.lt_log2_self

theorem scale_exponentOf (hnum : 0 < numerator) (hden : 0 < denominator)
    (hv : (numerator : ℚ) / denominator = v) :
    Scale format v (format.exponentOf numerator denominator) := by
  have hden' : (0 : ℚ) < denominator := by exact_mod_cast hden
  obtain ⟨hnumle, hnumlt⟩ := log2_bounds hnum
  obtain ⟨hdenle, hdenlt⟩ := log2_bounds hden
  unfold exponentOf
  extract_lets guess
  have hguess : guess = (numerator.log2 : Int) - denominator.log2 - format.precision := rfl
  -- The guess is right or one too small.
  have hlow : (2 : ℚ) ^ (guess + format.precision - 1) ≤ v := by
    rw [← hv, le_div_iff₀ hden']
    refine le_trans (mul_le_mul_of_nonneg_left hdenlt.le (two_zpow_pos _).le) ?_
    rw [← zpow_add₀ two_ne_zero]
    refine le_trans (two_zpow_le ?_) hnumle
    omega
  have hhigh : v < 2 ^ (guess + format.precision + 1) := by
    rw [← hv, div_lt_iff₀ hden']
    refine hnumlt.trans_le (le_trans ?_ (mul_le_mul_of_nonneg_left hdenle (two_zpow_pos _).le))
    rw [← zpow_add₀ two_ne_zero]
    refine two_zpow_le ?_
    omega
  have htest : (scaled numerator denominator guess).2 * Nat.pow 2 format.precision ≤
      (scaled numerator denominator guess).1 ↔ (2 : ℚ) ^ (guess + format.precision) ≤ v := by
    have hpos : (0 : ℚ) < (scaled numerator denominator guess).2 := by
      exact_mod_cast scaled_pos numerator hden guess
    rw [← hv, add_comm guess, zpow_add₀ two_ne_zero, ← le_div_iff₀ (two_zpow_pos guess),
      ← scaled_eq, le_div_iff₀ hpos, mul_comm, ← @Nat.cast_le ℚ]
    simp
  dsimp only
  rw [if_congr htest rfl rfl]
  split
  next h =>
    refine ⟨le_max_right _ _, hhigh.trans_le (two_zpow_le (by omega)), ?_⟩
    rcases le_total (guess + 1) format.least with hle | hle
    · exact .inr (max_eq_right hle)
    · rw [max_eq_left hle]
      exact .inl (by convert h using 2; omega)
  next h =>
    refine ⟨le_max_right _ _, (not_le.1 h).trans_le (two_zpow_le (by omega)), ?_⟩
    rcases le_total guess format.least with hle | hle
    · exact .inr (max_eq_right hle)
    · rw [max_eq_left hle]
      exact .inl hlow

/-! ## The numbers that round to one -/

/-- The numbers of a format, each with the one pair that stands for it. -/
structure Holds (format : BinaryFormat) (m : Nat) (q : Int) : Prop where
  lt : m < 2 ^ format.precision
  least_le : format.least ≤ q
  le_most : q ≤ format.most
  full : 2 ^ (format.precision - 1) ≤ m ∨ q = format.least

/-- The lower end of the interval of a number, in quarters of its step. -/
def lower (format : BinaryFormat) (m : Nat) (q : Int) : ℚ :=
  if m = 2 ^ (format.precision - 1) ∧ format.least < q then 4 * m - 1 else 4 * m - 2

/-- A number rounds to `m * 2 ^ q`. -/
structure RoundsTo (format : BinaryFormat) (v : ℚ) (m : Nat) (q : Int) : Prop where
  ge : format.lower m q * 2 ^ (q - 2) ≤ v
  le : v ≤ (4 * m + 2) * 2 ^ (q - 2)
  strict : m % 2 = 1 → format.lower m q * 2 ^ (q - 2) < v ∧ v < (4 * m + 2) * 2 ^ (q - 2)

/-- Rounding to a whole number, in terms of the quotient. -/
theorem divideToEven_eq_of_div {n d m : Nat} {x : ℚ} (hd : 0 < d) (hx : (n : ℚ) / d = x)
    (hlo : (m : ℚ) - 1 / 2 ≤ x) (hhi : x ≤ m + 1 / 2)
    (hodd : m % 2 = 1 → (m : ℚ) - 1 / 2 < x ∧ x < m + 1 / 2) : divideToEven n d = m := by
  have hd' : (0 : ℚ) < d := by exact_mod_cast hd
  subst hx
  rw [le_div_iff₀ hd'] at hlo
  rw [div_le_iff₀ hd'] at hhi
  rw [lt_div_iff₀ hd', div_lt_iff₀ hd'] at hodd
  refine divideToEven_eq hd ?_ ?_ fun h => ⟨?_, ?_⟩ <;> qify
  · linarith
  · linarith
  · linarith [(hodd h).1]
  · linarith [(hodd h).2]

/-- What the nearest number is, once the exponent is known. -/
theorem nearest_of_scale (hnum : 0 < numerator) (hden : 0 < denominator)
    (hv : (numerator : ℚ) / denominator = v) {q : Int} (h : Scale format v q) {m : Nat}
    (hm : divideToEven (scaled numerator denominator q).1 (scaled numerator denominator q).2 = m) :
    format.nearest numerator denominator =
      if m = 2 ^ format.precision then
        if format.most < q + 1 then none else some (m / 2, q + 1)
      else if format.most < q then none else some (m, q) := by
  simp only [nearest, if_neg hnum.ne', (scale_exponentOf hnum hden hv).unique h, hm, Nat.pow_eq]
  split <;> rfl

theorem two_zpow_add_precision (q : Int) : (2 : ℚ) ^ (q + format.precision) =
    2 ^ format.precision * 2 ^ q := by
  rw [zpow_add₀ two_ne_zero, zpow_natCast, mul_comm]

theorem two_pow_precision (hp : 0 < format.precision) :
    (2 : ℚ) ^ format.precision = 2 * 2 ^ (format.precision - 1) := by
  rw [← pow_succ', Nat.sub_add_cancel hp]

theorem two_zpow_eq_quarters (q : Int) : (2 : ℚ) ^ q = 4 * 2 ^ (q - 2) := by
  rw [zpow_sub₀ two_ne_zero]
  ring

theorem two_zpow_pred_eq_quarters (q : Int) : (2 : ℚ) ^ (q - 1) = 2 * 2 ^ (q - 2) := by
  rw [zpow_sub₀ two_ne_zero, zpow_sub₀ two_ne_zero]
  ring

theorem sub_two_le_lower (format : BinaryFormat) (m : Nat) (q : Int) :
    (4 * m - 2 : ℚ) ≤ format.lower m q := by
  unfold lower
  split <;> linarith

/-- What rounds to a positive number is positive. -/
theorem RoundsTo.pos {m : Nat} {q : Int} (hround : RoundsTo format v m q) (hm : 0 < m) : 0 < v := by
  have hone : (1 : ℚ) ≤ m := by exact_mod_cast hm
  have hlow := sub_two_le_lower format m q
  exact (mul_pos (by linarith) (two_zpow_pos (q - 2))).trans_le hround.ge

/-- What rounds to a number is below the next power of two. -/
theorem RoundsTo.lt {m : Nat} {q : Int} (hround : RoundsTo format v m q) (h : Holds format m q) :
    v < 2 ^ (q + format.precision) := by
  have hm : (m : ℚ) + 1 ≤ 2 ^ format.precision := by exact_mod_cast h.lt
  have hupos := two_zpow_pos (q - 2)
  refine hround.le.trans_lt ?_
  rw [two_zpow_add_precision, two_zpow_eq_quarters q]
  nlinarith

/-- At the exponent of a number, the significand is what the quotient is rounded to. -/
theorem RoundsTo.divideToEven_eq {m : Nat} {q : Int} (hround : RoundsTo format v m q)
    (hden : 0 < denominator) (hv : (numerator : ℚ) / denominator = v) :
    divideToEven (scaled numerator denominator q).1 (scaled numerator denominator q).2 = m := by
  have hupos := two_zpow_pos (q - 2)
  have hq := two_zpow_eq_quarters q
  have hlow := sub_two_le_lower format m q
  refine divideToEven_eq_of_div (scaled_pos _ hden q) ((scaled_eq _ _ q).trans (by rw [hv]))
    ?_ ?_ fun hodd => ⟨?_, ?_⟩
  · rw [le_div_iff₀ (two_zpow_pos q), hq]
    nlinarith [hround.ge]
  · rw [div_le_iff₀ (two_zpow_pos q), hq]
    nlinarith [hround.le]
  · rw [lt_div_iff₀ (two_zpow_pos q), hq]
    nlinarith [(hround.strict hodd).1]
  · rw [div_lt_iff₀ (two_zpow_pos q), hq]
    nlinarith [(hround.strict hodd).2]

/-- Just below a power of two, the quotient has a smaller exponent, at which it is rounded up. -/
theorem nearest_eq_of_lt (hp : 0 < format.precision) (hnum : 0 < numerator) (hden : 0 < denominator)
    (hv : (numerator : ℚ) / denominator = v) {m : Nat} {q : Int} (h : Holds format m q)
    (hround : RoundsTo format v m q) (hleast : format.least < q)
    (hbelow : v < 2 ^ (q + format.precision - 1)) :
    format.nearest numerator denominator = some (m, q) := by
  have hupos := two_zpow_pos (q - 2)
  have hq := two_zpow_eq_quarters q
  have hq' := two_zpow_pred_eq_quarters q
  have hlow := sub_two_le_lower format m q
  have hfull := h.full.resolve_right hleast.ne'
  have hhalf : (2 : ℚ) ^ (q + format.precision - 1) =
      2 ^ (format.precision - 1) * (4 * 2 ^ (q - 2)) := by
    rw [← hq, add_sub_assoc, ← Nat.cast_pred hp, zpow_add₀ two_ne_zero, zpow_natCast, mul_comm]
  rw [hhalf] at hbelow
  -- below the power of two only the least mantissa is left, half a unit of the smaller scale away
  have hm : m = 2 ^ (format.precision - 1) := by
    by_contra hne
    have hmore : (2 : ℚ) ^ (format.precision - 1) + 1 ≤ m := by
      exact_mod_cast lt_of_le_of_ne hfull (Ne.symm hne)
    nlinarith [hround.ge]
  have hmq : (m : ℚ) = 2 ^ (format.precision - 1) := by exact_mod_cast hm
  have hge := hround.ge
  rw [lower, if_pos ⟨hm, hleast⟩] at hge
  have hone : (1 : ℚ) ≤ m := by
    rw [hmq]
    exact one_le_pow₀ one_le_two
  -- so the number is measured by the next smaller exponent
  have hscale : Scale format v (q - 1) := by
    refine ⟨by omega, ?_, .inl ?_⟩
    · rw [two_zpow_add_precision, two_pow_precision hp, hq']
      linarith
    · rw [show q - 1 + (format.precision : Int) - 1 = q + format.precision - 1 - 1 by ring,
        zpow_sub_one₀ two_ne_zero, hhalf, ← hmq]
      nlinarith
  -- where its quotient is rounded up to twice the mantissa
  have hdivide : divideToEven (scaled numerator denominator (q - 1)).1
      (scaled numerator denominator (q - 1)).2 = 2 * m := by
    refine divideToEven_eq_of_div (scaled_pos _ hden _) ((scaled_eq _ _ _).trans (by rw [hv]))
      ?_ ?_ fun hodd => absurd hodd (by omega)
    · rw [le_div_iff₀ (two_zpow_pos _), hq']
      push_cast
      linarith
    · rw [div_le_iff₀ (two_zpow_pos _), hq']
      push_cast
      rw [← hmq] at hbelow
      nlinarith
  -- and the carry brings it back to the exponent from before
  have hpow : 2 * m = 2 ^ format.precision := by
    rw [hm, ← pow_succ', Nat.sub_add_cancel hp]
  rw [nearest_of_scale hnum hden hv hscale hdivide, if_pos hpow, sub_add_cancel,
    if_neg (not_lt.2 h.le_most), Nat.mul_div_cancel_left _ two_pos]

/-- **Rounding gives the number in whose interval the quotient lies.** -/
theorem nearest_eq (hp : 0 < format.precision) (hnum : 0 < numerator) (hden : 0 < denominator)
    (hv : (numerator : ℚ) / denominator = v) {m : Nat} {q : Int} (h : Holds format m q)
    (hround : RoundsTo format v m q) : format.nearest numerator denominator = some (m, q) := by
  by_cases hscale : 2 ^ (q + format.precision - 1) ≤ v ∨ q = format.least
  · rw [nearest_of_scale hnum hden hv ⟨h.least_le, hround.lt h, hscale⟩
      (hround.divideToEven_eq hden hv), if_neg h.lt.ne, if_neg (not_lt.2 h.le_most)]
  · obtain ⟨hbelow, hleast⟩ := not_or.1 hscale
    exact nearest_eq_of_lt hp hnum hden hv h hround (lt_of_le_of_ne h.least_le (Ne.symm hleast))
      (not_le.1 hbelow)

/-! ## Closeness -/

/-- How a number follows what it stands for: it is as close as the precision of the format allows,
and the same when the format has it. -/
structure Follows (format : BinaryFormat) (v : ℚ) (x : Nat × Int) : Prop where
  close : |value x - v| ≤ v / 2 ^ format.precision
  exact : ∀ m q, m < 2 ^ format.precision → format.least ≤ q → v = value (m, q) → value x = v

section Scaled

variable {q : Int} {m : Nat}

/-- Rounding to a multiple of a step moves by half a step at most. -/
theorem abs_value_sub_le (hden : 0 < denominator) (hv : (numerator : ℚ) / denominator = v)
    (hm : divideToEven (scaled numerator denominator q).1 (scaled numerator denominator q).2 = m) :
    |value (m, q) - v| ≤ 2 ^ q / 2 := by
  have hpos := scaled_pos numerator hden q
  have hx := (scaled_eq numerator denominator q).trans (by rw [hv])
  have hqpos := two_zpow_pos q
  generalize scaled numerator denominator q = s at *
  have hpos' : (0 : ℚ) < s.2 := by exact_mod_cast hpos
  obtain ⟨hlo, hhi⟩ := divideToEven_close s.1 hpos
  rw [hm] at hlo hhi
  qify at hlo hhi
  have hcast : v = s.1 / s.2 * 2 ^ q := by
    rw [hx]
    field_simp
  have hlo' : (s.1 : ℚ) / s.2 ≤ m + 1 / 2 := by
    rw [div_le_iff₀ hpos']
    linarith
  have hhi' : (m : ℚ) - 1 / 2 ≤ s.1 / s.2 := by
    rw [le_div_iff₀ hpos']
    linarith
  rw [hcast, value, abs_le]
  constructor <;> nlinarith

/-- A multiple of the step is not rounded. -/
theorem value_eq_of_multiple (hden : 0 < denominator) (hv : (numerator : ℚ) / denominator = v)
    (hm : divideToEven (scaled numerator denominator q).1 (scaled numerator denominator q).2 = m)
    {m' : Nat} {e : Int} (hle : q ≤ e) (hmultiple : v = value (m', e)) : value (m, q) = v := by
  have hpos := scaled_pos numerator hden q
  have hx := (scaled_eq numerator denominator q).trans (by rw [hv])
  generalize scaled numerator denominator q = s at *
  have hpos' : (0 : ℚ) < s.2 := by exact_mod_cast hpos
  obtain ⟨count, hcount⟩ := Int.eq_ofNat_of_zero_le (sub_nonneg.2 hle)
  have hratio : (s.1 : ℚ) / s.2 = (m' * 2 ^ count : Nat) := by
    rw [hx, hmultiple, value, show e = q + count by omega, zpow_add₀ two_ne_zero, zpow_natCast]
    push_cast
    field_simp
  have hs : s.1 = m' * 2 ^ count * s.2 := by
    rw [div_eq_iff hpos'.ne'] at hratio
    exact_mod_cast hratio
  rw [hs, divideToEven_mul_self _ hpos] at hm
  rw [value, ← hm, ← hratio, hx]
  field_simp

/-- Where the significand is full, half a step is at most one part of the precision, and the step
divides every number of the format. -/
theorem follows_of_scale (hden : 0 < denominator) (hv : (numerator : ℚ) / denominator = v)
    (hge : 2 ^ (q + format.precision - 1) ≤ v)
    (hm : divideToEven (scaled numerator denominator q).1 (scaled numerator denominator q).2 = m) :
    Follows format v (m, q) := by
  refine ⟨(abs_value_sub_le hden hv hm).trans ?_, fun m' e hm' _ hmultiple => ?_⟩
  · rw [le_div_iff₀ (by positivity)]
    rw [zpow_sub_one₀ two_ne_zero, two_zpow_add_precision] at hge
    linarith
  · have hlt : v < 2 ^ (e + format.precision) := by
      rw [hmultiple, value, two_zpow_add_precision]
      exact mul_lt_mul_of_pos_right (by exact_mod_cast hm') (two_zpow_pos e)
    have hexponents := (zpow_lt_zpow_iff_right₀ one_lt_two).1 (hge.trans_lt hlt)
    exact value_eq_of_multiple hden hv hm (by omega) hmultiple

/-- A significand that has become too large stands for the same number at the next exponent. -/
theorem value_half (hp : 0 < format.precision) (hm : m = 2 ^ format.precision) :
    value (m / 2, q + 1) = value (m, q) := by
  have hhalf : m / 2 * 2 = m := by
    refine Nat.div_mul_cancel ?_
    rw [hm]
    exact dvd_pow_self 2 hp.ne'
  have hhalf' : ((m / 2 : Nat) : ℚ) * 2 = m := by exact_mod_cast hhalf
  simp only [value]
  rw [two_zpow_succ, ← mul_assoc, hhalf']

end Scaled

/-- **Inside the range of a format, rounding gives a number that follows the quotient.** -/
theorem nearest_follows (hp : 0 < format.precision) (hden : 0 < denominator)
    (hv : (numerator : ℚ) / denominator = v)
    (hleast : 2 ^ (format.least + format.precision - 1) ≤ v)
    (hmost : v < 2 ^ (format.most + format.precision - 1)) :
    ∃ x, format.nearest numerator denominator = some x ∧ Follows format v x := by
  have hvpos : 0 < v := (two_zpow_pos _).trans_le hleast
  have hden' : (0 : ℚ) < denominator := by exact_mod_cast hden
  have hnum : 0 < numerator := by
    rw [← hv] at hvpos
    exact_mod_cast (div_pos_iff_of_pos_right hden').1 hvpos
  have hscale : Scale format v (format.exponentOf numerator denominator) :=
    scale_exponentOf hnum hden hv
  generalize format.exponentOf numerator denominator = q at hscale
  have hge : 2 ^ (q + format.precision - 1) ≤ v := by
    rcases hscale.le with h | rfl
    · exact h
    · exact hleast
  have hlt : q < format.most := by
    have := (zpow_lt_zpow_iff_right₀ one_lt_two).1 (hge.trans_lt hmost)
    omega
  generalize hm : divideToEven (scaled numerator denominator q).1
    (scaled numerator denominator q).2 = m
  have hnearest := nearest_of_scale hnum hden hv hscale hm
  have hfollows : Follows format v (m, q) := follows_of_scale hden hv hge hm
  rw [if_neg (not_lt.2 hlt.le), if_neg (not_lt.2 (by omega))] at hnearest
  split at hnearest
  next hcarry =>
    -- a quotient rounded up to the next power of two is halved, which leaves its value alone
    have hvalue := value_half (q := q) hp hcarry
    exact ⟨_, hnearest, hvalue ▸ hfollows.close,
      fun m' e hm' he h => hvalue ▸ hfollows.exact m' e hm' he h⟩
  next => exact ⟨_, hnearest, hfollows⟩

/-- Only zero has no significand. -/
theorem significand_pos {x : Nat × Int} (h : 0 < value x) : 0 < x.1 := by
  rcases Nat.eq_zero_or_pos x.1 with hzero | hpos
  · rw [value, hzero, Nat.cast_zero, zero_mul] at h
    exact absurd h (lt_irrefl 0)
  · exact hpos

end BinaryFormat

end ParticleDynamics
