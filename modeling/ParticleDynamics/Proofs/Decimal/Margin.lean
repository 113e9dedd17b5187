import ParticleDynamics.Proofs.Decimal.Shortest

/-!
# How far shortest decimals are from being misread

A reader that is off by a little may miss a number, namely where its decimal is close to an end of
the interval of what rounds to it. `Shortest.decimal_outcome` says how close shortest decimals come
to that: all but one can be read with an error of one part in `2 ^ 51`, apart from those that are an
end themselves, which are short in binary too.

On a grid that is not coarser than the step of the number, the decimal is near the middle of the
interval. On a coarser grid it is a multiple of a power of ten that is greater than the step, of
which there are few enough for the approximations of that power to tell how close they come to an
end. The powers of two, whose intervals are narrower, are tried out.
-/

namespace ParticleDynamics

open BinaryFormat

namespace Shortest

variable {m : Nat} {q : Int}

/-! ## Reading with a small error -/

/-- What is within one part in `2 ^ 51` of a number rounds to `m * 2 ^ q`. -/
def Steady (v : ℚ) (m : Nat) (q : Int) : Prop := ∀ z, |z - v| ≤ v / 2 ^ 51 → RoundsTo single z m q

/-- So it is when the ends of the interval are further away than that. -/
theorem steady_of_lt {v : ℚ} (hlo : v / 2 ^ 51 < v - single.lower m q * 2 ^ (q - 2))
    (hhi : v / 2 ^ 51 < (4 * m + 2) * 2 ^ (q - 2) - v) : Steady v m q := by
  intro z hz
  obtain ⟨hge, hle⟩ := abs_le.1 hz
  have hlower : single.lower m q * 2 ^ (q - 2) < z := by linarith
  have hupper : z < (4 * m + 2) * 2 ^ (q - 2) := by linarith
  exact ⟨hlower.le, hupper.le, fun _ => ⟨hlower, hupper⟩⟩

/-- A decimal is in range and far from the ends of the interval of a power of two. -/
def Far (q : Int) (n : Nat) (k : Int) : Prop :=
  let i := (Interval.ofParts Single.leadingBit q).atPlace k
  0 < n ∧ n < 2 ^ 28 ∧ -45 ≤ k ∧ k ≤ 39 ∧
    i.lo * 2 ^ 51 + n * i.unit < n * i.unit * 2 ^ 51 ∧
    n * i.unit * 2 ^ 51 + n * i.unit < i.hi * 2 ^ 51

instance (q : Int) (n : Nat) (k : Int) : Decidable (Far q n k) :=
  inferInstanceAs (Decidable (_ ∧ _))

/-- The powers of two above the least exponent have shortest decimals far from the ends. -/
theorem far_decimal {q : Int} (hlo : -149 < q) (hhi : q ≤ 104) :
    Far q (decimal Single.leadingBit q).1 (decimal Single.leadingBit q).2 := by
  have key : ∀ i < 253, Far ((i : Nat) - 148 : Int) (decimal Single.leadingBit (i - 148)).1
      (decimal Single.leadingBit (i - 148)).2 := by decide +kernel
  have hfar := key (q + 148).toNat (by omega)
  rwa [show ((q + 148).toNat : Int) - 148 = q by omega] at hfar

/-- Nothing but a small error away from such a decimal is read as another number. -/
theorem Far.steady {n : Nat} {k : Int} (h : Far q n k) :
    Steady (n * 10 ^ k) Single.leadingBit q := by
  obtain ⟨-, -, -, -, hlo, hhi⟩ := h
  have hpos := measure_pos q k
  have hlower := lo_eq (q := q) (by decide : 0 < Single.leadingBit) k
  have hunit := mul_unit_eq Single.leadingBit q k n
  have hupper := hi_eq Single.leadingBit q k
  qify at hlo hhi
  rw [← Nat.cast_mul n, hlower, hunit] at hlo
  rw [← Nat.cast_mul n, hupper, hunit] at hhi
  generalize (n : ℚ) * 10 ^ k = v at *
  refine steady_of_lt ?_ ?_
  · generalize single.lower Single.leadingBit q * 2 ^ (q - 2) = lower at *
    have : 0 < (v * 2 ^ 51 - lower * 2 ^ 51 - v) * measure q k := by linarith
    have := (mul_pos_iff_of_pos_right hpos).1 this
    linarith
  · generalize (4 * (Single.leadingBit : ℚ) + 2) * 2 ^ (q - 2) = upper at *
    have : 0 < (upper * 2 ^ 51 - v * 2 ^ 51 - v) * measure q k := by linarith
    have := (mul_pos_iff_of_pos_right hpos).1 this
    linarith

/-- A power of ten by its greatest power of two below. -/
theorem above_eq (k : Int) : (above k : ℚ) * 2 ^ (exponentBelow k - 1) = 10 ^ k * below k := by
  rw [zpow_eq_div two_ne_zero, zpow_eq_div (by norm_num : (10 : ℚ) ≠ 0), neg_sub, above, below]
  simp only [Nat.pow_eq]
  push_cast
  field_simp

theorem below_pos (k : Int) : 0 < below k :=
  Nat.mul_pos (Nat.pow_pos (by norm_num)) (Nat.pow_pos two_pos)

/-- Powers of two and of ten compared. -/
theorem two_zpow_exponentBelow_lt {k : Int} (hlo : -45 ≤ k) (hhi : k ≤ 39) :
    (2 : ℚ) ^ exponentBelow k < 10 ^ k := by
  have hpos : (0 : ℚ) < below k := by exact_mod_cast below_pos k
  have hlt : 2 * (below k : ℚ) < above k := by exact_mod_cast (separated hlo hhi).lt
  have heq := above_eq k
  rw [zpow_sub_one₀ two_ne_zero] at heq
  have htwo := two_zpow_pos (exponentBelow k)
  by_contra hnot
  nlinarith

/-- A power of ten that is not above a power of two is below it by one part in `2 ^ 26`, unless both
are one. -/
theorem ten_zpow_le {k : Int} (hlo : -45 ≤ k) (hhi : k ≤ 39) (hle : (10 : ℚ) ^ k ≤ 2 ^ q) :
    k = 0 ∧ q = 0 ∨ 2 ^ 26 * (10 : ℚ) ^ k ≤ (2 ^ 26 - 1) * 2 ^ q := by
  have hbelow : (0 : ℚ) < below k := by exact_mod_cast below_pos k
  have hlt : exponentBelow k < q :=
    (zpow_lt_zpow_iff_right₀ one_lt_two).1 ((two_zpow_exponentBelow_lt hlo hhi).trans_le hle)
  rcases (separated hlo hhi).le with ⟨rfl, -⟩ | hsep
  · rcases eq_or_lt_of_le (show 0 ≤ q by rw [show exponentBelow 0 = -1 by decide] at hlt; omega)
      with rfl | hq
    · exact .inl ⟨rfl, rfl⟩
    · have : (2 : ℚ) ^ (1 : Int) ≤ 2 ^ q := two_zpow_le hq
      refine .inr ?_
      norm_num at this ⊢
      linarith
  · refine .inr ?_
    have hq : (2 : ℚ) ^ (exponentBelow k + 1) ≤ 2 ^ q := two_zpow_le hlt
    have heq := above_eq k
    have hhalf := two_zpow_pos (exponentBelow k - 1)
    rw [show exponentBelow k + 1 = exponentBelow k - 1 + 2 by ring, zpow_add₀ two_ne_zero] at hq
    have hsep' : 2 ^ 26 * (above k : ℚ) + 4 * below k ≤ 4 * 2 ^ 26 * below k := by
      exact_mod_cast hsep
    have hmul : 2 ^ 26 * (10 : ℚ) ^ k * below k ≤ (2 ^ 26 - 1) * 2 ^ q * below k := by
      nlinarith
    exact le_of_mul_le_mul_right hmul hbelow

theorem ten_zpow_le_succ {k : Int} (hlo : -45 ≤ k) (hhi : k ≤ 39) :
    (10 : ℚ) ^ k ≤ 2 ^ (exponentBelow k + 1) := by
  have hbelow : (0 : ℚ) < below k := by exact_mod_cast below_pos k
  have hle : above k ≤ 4 * below k := by
    rcases (separated hlo hhi).le with ⟨-, h⟩ | h <;> omega
  have hle' : (above k : ℚ) ≤ 4 * below k := by exact_mod_cast hle
  have heq := above_eq k
  have hhalf := two_zpow_pos (exponentBelow k - 1)
  rw [show exponentBelow k + 1 = exponentBelow k - 1 + 2 by ring, zpow_add₀ two_ne_zero]
  have hmul : (10 : ℚ) ^ k * below k ≤ 2 ^ (exponentBelow k - 1) * 2 ^ (2 : Int) * below k := by
    norm_num
    nlinarith
  exact le_of_mul_le_mul_right hmul hbelow

/-! ## Decimals on coarse grids -/

/-- A multiple of a power of ten that is greater than the step `2 ^ q`, as a multiple of that power
brought down to the size of the step. -/
def refined (n : Nat) (k q : Int) : Nat := n * 2 ^ (exponentBelow k - q).toNat

theorem refined_mul_above {k : Int} (n : Nat) (hq : q ≤ exponentBelow k) :
    (refined n k q : ℚ) * above k * 2 ^ (q - 1) = n * 10 ^ k * below k := by
  have hpow : (2 : ℚ) ^ (exponentBelow k - 1) =
      2 ^ (exponentBelow k - q).toNat * 2 ^ (q - 1) := by
    rw [← zpow_natCast, ← zpow_add₀ two_ne_zero]
    congr 1
    omega
  rw [mul_assoc (n : ℚ), ← above_eq, hpow, refined]
  push_cast
  ring

/-- There are few multiples of a power of ten in an interval with a smaller step. -/
theorem refined_lt {k : Int} (hlo : -45 ≤ k) (hhi : k ≤ 39) {n : Nat} (hq : q ≤ exponentBelow k)
    (hlt : (n : ℚ) * 10 ^ k < 2 ^ 24 * 2 ^ q) : refined n k q < 2 ^ 24 := by
  have hbelow : (0 : ℚ) < below k := by exact_mod_cast below_pos k
  have hhalf := two_zpow_pos (q - 1)
  have hstep : (2 : ℚ) ^ q = 2 * 2 ^ (q - 1) := by rw [← two_zpow_succ, sub_add_cancel]
  have habove : 2 * (below k : ℚ) < above k := by exact_mod_cast (separated hlo hhi).lt
  have hprod : (refined n k q : ℚ) * above k * 2 ^ (q - 1) < 2 ^ 25 * below k * 2 ^ (q - 1) := by
    rw [refined_mul_above n hq]
    nlinarith
  have hprod' := lt_of_mul_lt_mul_right hprod hhalf.le
  have hlt' : (refined n k q : ℚ) < 2 ^ 24 := by
    by_contra hnot
    nlinarith
  exact_mod_cast hlt'

/-- Where the refinement is odd, nothing was brought down. -/
theorem eq_of_refined_odd {k : Int} {n : Nat} (hodd : refined n k q % 2 = 1)
    (hq : q ≤ exponentBelow k) : q = exponentBelow k ∧ refined n k q = n := by
  rcases hshift : (exponentBelow k - q).toNat with _ | t
  · exact ⟨by omega, by rw [refined, hshift, pow_zero, mul_one]⟩
  · rw [refined, hshift, pow_succ, ← mul_assoc] at hodd
    omega

/-- The distance to a multiple of half a step is an error of the approximations. -/
theorem abs_sub_mul_below {k : Int} (n e : Nat) (hq : q ≤ exponentBelow k) :
    |(n : ℚ) * 10 ^ k - e * 2 ^ (q - 1)| * below k =
      2 ^ (q - 1) * error (above k) (below k) e (refined n k q) := by
  have hcast : (error (above k) (below k) e (refined n k q) : ℚ) =
      |(refined n k q : ℚ) * above k - e * below k| := by
    rw [error, Nat.cast_natAbs]
    push_cast
    rfl
  rw [hcast, ← abs_of_pos (two_zpow_pos (q - 1)), ← abs_mul, ← Nat.abs_cast (below k), ← abs_mul,
    sub_mul, ← refined_mul_above n hq, abs_of_pos (two_zpow_pos (q - 1)), Nat.abs_cast]
  congr 1
  ring

/-- A decimal on a grid that is coarser than the step is far from an end of an interval, or it is
the end, or it is the exception. -/
theorem far_or_end {k : Int} (hlo : -45 ≤ k) (hhi : k ≤ 39) {n e : Nat} (hpos : 0 < n)
    (hcoarse : (2 : ℚ) ^ q < 10 ^ k) (hlt : (n : ℚ) * 10 ^ k < 2 ^ 24 * 2 ^ q)
    (hodd : e % 2 = 1) (he : e < 2 ^ 25) :
    (n : ℚ) * 10 ^ k / 2 ^ 51 < |(n : ℚ) * 10 ^ k - e * 2 ^ (q - 1)| ∨
      ((n : ℚ) * 10 ^ k = e * 2 ^ (q - 1) ∧ -22 ≤ k ∧ k ≤ 22) ∨
      (k = -32 ∧ n = 7038531 ∧ q = -107) := by
  have hbelow : (0 : ℚ) < below k := by exact_mod_cast below_pos k
  have hhalf := two_zpow_pos (q - 1)
  have hq : q ≤ exponentBelow k := by
    have := (zpow_lt_zpow_iff_right₀ one_lt_two).1 (hcoarse.trans_le (ten_zpow_le_succ hlo hhi))
    omega
  have hmul := refined_mul_above n hq
  have hsmall := refined_lt hlo hhi hq hlt
  have hrefined : 0 < refined n k q := Nat.mul_pos hpos (Nat.pow_pos two_pos)
  refine or_iff_not_imp_left.2 fun hnear => ?_
  have hgap := abs_sub_mul_below n e hq
  -- near means a small error of the fraction, once both sides are whole numbers
  have herror : error (above k) (below k) e (refined n k q) * 2 ^ 51 ≤ refined n k q * above k := by
    have hle := mul_le_mul_of_nonneg_right (not_lt.1 hnear) hbelow.le
    rw [hgap, div_mul_eq_mul_div, ← hmul, le_div_iff₀ (by positivity)] at hle
    have hle' : (error (above k) (below k) e (refined n k q) : ℚ) * 2 ^ 51 ≤
        refined n k q * above k := by
      refine le_of_mul_le_mul_right ?_ hhalf
      linarith
    exact_mod_cast hle'
  rcases eq_or_exception_of_near hlo hhi hrefined hsmall hodd he herror with
    ⟨hzero, hrange⟩ | ⟨rfl, hn, -⟩
  · -- no error at all: the number is the middle
    rw [hzero, Nat.cast_zero, mul_zero] at hgap
    have habs := (mul_eq_zero.1 hgap).resolve_right hbelow.ne'
    exact .inl ⟨sub_eq_zero.1 (abs_eq_zero.1 habs), hrange⟩
  · -- the one exception
    refine .inr ⟨rfl, ?_⟩
    obtain ⟨hexponent, hsame⟩ := eq_of_refined_odd (by rw [hn]) hq
    exact ⟨hsame ▸ hn, hexponent.trans (by decide)⟩

/-! ## The outcome -/

/-- What is known of the decimal `n * 10 ^ k` of the number `m * 2 ^ q`. -/
structure Readable (m : Nat) (q : Int) (n : Nat) (k : Int) : Prop where
  pos : 0 < n
  lt : n < 2 ^ 28
  place_ge : -45 ≤ k
  place_le : k ≤ 39
  roundsTo : RoundsTo single (n * 10 ^ k) m q
  margin : Steady (n * 10 ^ k) m q ∨
    ((∃ e < 2 ^ 25, (n : ℚ) * 10 ^ k = value (e, q - 1)) ∧ -22 ≤ k ∧ k ≤ 22) ∨
    (k = -32 ∧ n = 7038531 ∧ q = -107)

theorem Steady.roundsTo {v : ℚ} (h : Steady v m q) (hpos : 0 ≤ v) : RoundsTo single v m q :=
  h v (by rw [sub_self, abs_zero]; positivity)

theorem readable_of_far {n : Nat} {k : Int} (h : Far q n k) :
    Readable Single.leadingBit q n k :=
  ⟨h.1, h.2.1, h.2.2.1, h.2.2.2.1, h.steady.roundsTo (by positivity), .inl h.steady⟩

/-- A decimal of at most half a unit from the middle is read as the number. -/
theorem steady_of_fine (hregular : Regular m q) {v : ℚ} (hlt : v < 2 ^ 24 * 2 ^ q)
    (hclose : 2 ^ 26 * |v - m * 2 ^ q| ≤ (2 ^ 26 - 1) * (2 ^ q / 2)) : Steady v m q := by
  intro z hz
  refine roundsTo_of_abs_lt hregular ?_
  have htriangle := abs_sub_le z v (m * 2 ^ q)
  linarith

/-- On a grid that is not coarser than the step, the decimal is near the middle of the interval. -/
theorem steady_of_pick (hm : 0 < m) (hregular : Regular m q) {n : Nat} {k : Int} (hlo : -45 ≤ k)
    (hhi : k ≤ 39) (hfine : (10 : ℚ) ^ k ≤ 2 ^ q) (hlt : (n : ℚ) * 10 ^ k < 2 ^ 24 * 2 ^ q)
    (hpick : ((Interval.ofParts m q).atPlace k).pick = some n) : Steady (n * 10 ^ k) m q := by
  have hclose := abs_sub_le_of_pick hm hregular hfine hpick
  refine steady_of_fine hregular hlt ?_
  rcases ten_zpow_le hlo hhi hfine with ⟨rfl, rfl⟩ | hle
  · -- Both powers are one, and the decimal is the number.
    rw [zpow_zero, zpow_zero, mul_one, mul_one] at hclose
    have hsame : |(n : Int) - m| < 1 := by
      have : |((n - m : Int) : ℚ)| < 1 := by
        push_cast
        linarith
      exact_mod_cast this
    have hsame' : (n : ℚ) = m := by exact_mod_cast sub_eq_zero.1 (Int.abs_lt_one_iff.1 hsame)
    rw [hsame', zpow_zero, zpow_zero, sub_self, abs_zero]
    norm_num
  · linarith

/-- On a coarser grid, the decimal is far from both ends of the interval, or it is one of them, or
it is the exception. -/
theorem steady_or_end (hm : 0 < m) (hmlt : m < 2 ^ 24) (hregular : Regular m q) {n : Nat} {k : Int}
    (hpos : 0 < n) (hlo : -45 ≤ k) (hhi : k ≤ 39) (hcoarse : (2 : ℚ) ^ q < 10 ^ k)
    (hlt : (n : ℚ) * 10 ^ k < 2 ^ 24 * 2 ^ q) (hround : RoundsTo single (n * 10 ^ k) m q) :
    Steady (n * 10 ^ k) m q ∨
      ((∃ e < 2 ^ 25, (n : ℚ) * 10 ^ k = value (e, q - 1)) ∧ -22 ≤ k ∧ k ≤ 22) ∨
      (k = -32 ∧ n = 7038531 ∧ q = -107) := by
  have hends {e : Nat} := far_or_end (e := e) hlo hhi hpos hcoarse hlt
  have hlower : single.lower m q * 2 ^ (q - 2) = (2 * m - 1 : Nat) * 2 ^ (q - 1) := by
    rw [lower_single, if_neg hregular, two_zpow_pred_eq_quarters, Nat.cast_sub (by omega)]
    push_cast
    ring
  have hupper : (4 * (m : ℚ) + 2) * 2 ^ (q - 2) = (2 * m + 1 : Nat) * 2 ^ (q - 1) := by
    rw [two_zpow_pred_eq_quarters]
    push_cast
    ring
  rcases hends (e := 2 * m - 1) (by omega) (by omega) with hfar | ⟨hend, hrange⟩ | hexception
  · rcases hends (e := 2 * m + 1) (by omega) (by omega) with hfar' | ⟨hend, hrange⟩ | hexception
    · refine .inl (steady_of_lt ?_ ?_)
      · rw [hlower]
        rwa [abs_of_nonneg (sub_nonneg.2 (hlower ▸ hround.ge))] at hfar
      · rw [hupper]
        rwa [abs_sub_comm, abs_of_nonneg (sub_nonneg.2 (hupper ▸ hround.le))] at hfar'
    · exact .inr (.inl ⟨⟨2 * m + 1, by omega, hend⟩, hrange⟩)
    · exact .inr (.inr hexception)
  · exact .inr (.inl ⟨⟨2 * m - 1, by omega, hend⟩, hrange⟩)
  · exact .inr (.inr hexception)

/-- On the coarsest grid with a multiple in the interval, there are not many of them below it. -/
theorem lt_of_place {n : Nat} {k : Int} (hq : q ≤ 104)
    (hplace : k = 39 ∨ (2 : ℚ) ^ q ≤ 10 ^ (k + 1))
    (hlt : (n : ℚ) * 10 ^ k < 2 ^ 24 * 2 ^ q) : n < 2 ^ 28 := by
  have hten : (0 : ℚ) < 10 ^ k := by positivity
  have hbound : (n : ℚ) * 10 ^ k < 2 ^ 28 * 10 ^ k := by
    rcases hplace with rfl | hplace
    · refine hlt.trans ?_
      have hmost : (2 : ℚ) ^ q ≤ 2 ^ (104 : Int) := two_zpow_le hq
      norm_num at hmost ⊢
      linarith
    · rw [zpow_add_one₀ (by norm_num)] at hplace
      linarith
  exact_mod_cast lt_of_mul_lt_mul_right hbound hten.le

/-- The decimals of numbers with a full step below them can be read. -/
theorem readable_of_regular (hm : 0 < m) (hregular : Regular m q) (h : Holds single m q) {n : Nat}
    {k : Int} (hdecimal : decimal m q = (n, k)) : Readable m q n k := by
  obtain ⟨hpick, hlo, hhi, hplace⟩ := decimal_of_regular hm hregular h.least_le hdecimal
  obtain ⟨hpos, hcontains⟩ := contains_of_pick hpick
  have hround := (contains_iff hm k n).1 hcontains
  have hlt : (n : ℚ) * 10 ^ k < 2 ^ 24 * 2 ^ q := by
    have hnext := hround.lt h
    rwa [two_zpow_add_precision] at hnext
  refine ⟨hpos, lt_of_place h.le_most hplace hlt, hlo, hhi, hround, ?_⟩
  rcases le_or_gt ((10 : ℚ) ^ k) (2 ^ q) with hfine | hcoarse
  · exact .inl (steady_of_pick hm hregular hlo hhi hfine hlt hpick)
  · exact steady_or_end hm h.lt hregular hpos hlo hhi hcoarse hlt hround

/-- **Shortest decimals can be read**: each rounds to its number, and what is off by one part in
`2 ^ 51` still does, unless the decimal is an end of the interval or the exception. -/
theorem decimal_outcome (hm : 0 < m) (h : Holds single m q) {n : Nat} {k : Int}
    (hdecimal : decimal m q = (n, k)) : Readable m q n k := by
  by_cases hpower : m = Single.leadingBit ∧ -149 < q
  · obtain ⟨rfl, hq⟩ := hpower
    have hfar := far_decimal hq h.le_most
    rw [hdecimal] at hfar
    exact readable_of_far hfar
  · exact readable_of_regular hm hpower h hdecimal

end Shortest

end ParticleDynamics
