import ParticleDynamics.Decimal.Shortest
import ParticleDynamics.Proofs.Decimal.Approximation
import ParticleDynamics.Proofs.Decimal.Rounding

/-!
# Shortest decimals stand for their numbers

The shortest decimal of a number lies in the interval of what rounds to the number
(`Shortest.contains_of_pick`, `Shortest.contains_iff`), and it is found: for a number with a full
step below it, the grid of the last place `-45` is fine enough (`Shortest.decimal_of_regular`). On a
grid that is not coarser than the step, it is the multiple nearest to the number
(`Shortest.abs_sub_le_of_pick`).
-/

namespace ParticleDynamics

open BinaryFormat

namespace Shortest

/-! ## The interval at a place -/

/-- What the number one is in the units of an interval at a place. -/
def measure (q place : Int) : ℚ := 2 ^ (2 - q).toNat * 10 ^ (-place).toNat

theorem measure_pos (q place : Int) : 0 < measure q place := by
  unfold measure
  positivity

theorem lower_single (m : Nat) (q : Int) :
    single.lower m q =
      if m = Single.leadingBit ∧ -149 < q then 4 * (m : ℚ) - 1 else 4 * m - 2 := rfl

/-- The ends of the interval and its middle, in its units. -/
theorem quarters_eq (count : Nat) (q place : Int) :
    ((count * Nat.pow 2 (q - 2).toNat * Nat.pow 10 (-place).toNat : Nat) : ℚ) =
      count * 2 ^ (q - 2) * measure q place := by
  rw [zpow_eq_div two_ne_zero, neg_sub, measure]
  push_cast
  simp only [Nat.pow_eq]
  push_cast
  field_simp

/-- The last place, in the units of the interval. -/
theorem unit_eq (m : Nat) (q place : Int) :
    ((((Interval.ofParts m q).atPlace place).unit : Nat) : ℚ) = 10 ^ place * measure q place := by
  rw [zpow_eq_div (by norm_num : (10 : ℚ) ≠ 0), measure]
  simp only [Interval.ofParts, Interval.atPlace, Nat.pow_eq]
  push_cast
  field_simp

theorem unit_pos (m : Nat) (q place : Int) : 0 < ((Interval.ofParts m q).atPlace place).unit := by
  have : (0 : ℚ) < (((Interval.ofParts m q).atPlace place).unit : Nat) := by
    rw [unit_eq]
    exact mul_pos (by positivity) (measure_pos q place)
  exact_mod_cast this

theorem value_eq (m : Nat) (q place : Int) :
    ((((Interval.ofParts m q).atPlace place).value : Nat) : ℚ) =
      m * 2 ^ q * measure q place := by
  rw [two_zpow_eq_quarters q]
  refine (quarters_eq (4 * m) q place).trans ?_
  push_cast
  ring

theorem hi_eq (m : Nat) (q place : Int) :
    ((((Interval.ofParts m q).atPlace place).hi : Nat) : ℚ) =
      (4 * m + 2) * 2 ^ (q - 2) * measure q place := by
  refine (quarters_eq (4 * m + 2) q place).trans ?_
  push_cast
  rfl

variable {m : Nat} {q : Int}

theorem lo_eq (hm : 0 < m) (place : Int) :
    ((((Interval.ofParts m q).atPlace place).lo : Nat) : ℚ) =
      single.lower m q * 2 ^ (q - 2) * measure q place := by
  refine (quarters_eq (4 * m - _) q place).trans ?_
  congr 2
  rw [lower_single]
  split <;> rw [Nat.cast_sub (by omega)] <;> simp

theorem mul_unit_eq (m : Nat) (q place : Int) (n : Nat) :
    (((n * ((Interval.ofParts m q).atPlace place).unit) : Nat) : ℚ) =
      n * 10 ^ place * measure q place := by
  rw [Nat.cast_mul, unit_eq, mul_assoc]

/-- A multiple of the last place lies in the interval when it rounds to the number. -/
theorem contains_iff (hm : 0 < m) (place : Int) (n : Nat) :
    ((Interval.ofParts m q).atPlace place).contains n = true ↔
      RoundsTo single (n * 10 ^ place) m q := by
  have hpos := measure_pos q place
  have hlo := lo_eq (q := q) hm place
  have hhi := hi_eq m q place
  have hunit := mul_unit_eq m q place n
  -- each of the four comparisons is one of whole numbers, times the same measure
  have hle : ((Interval.ofParts m q).atPlace place).lo ≤
        n * ((Interval.ofParts m q).atPlace place).unit ↔
      single.lower m q * 2 ^ (q - 2) ≤ n * 10 ^ place := by
    rw [← @Nat.cast_le ℚ, hlo, hunit, mul_le_mul_iff_of_pos_right hpos]
  have hle' : n * ((Interval.ofParts m q).atPlace place).unit ≤
        ((Interval.ofParts m q).atPlace place).hi ↔
      (n : ℚ) * 10 ^ place ≤ (4 * m + 2) * 2 ^ (q - 2) := by
    rw [← @Nat.cast_le ℚ, hhi, hunit, mul_le_mul_iff_of_pos_right hpos]
  have hlt : ((Interval.ofParts m q).atPlace place).lo <
        n * ((Interval.ofParts m q).atPlace place).unit ↔
      single.lower m q * 2 ^ (q - 2) < n * 10 ^ place := by
    rw [← @Nat.cast_lt ℚ, hlo, hunit, mul_lt_mul_iff_of_pos_right hpos]
  have hlt' : n * ((Interval.ofParts m q).atPlace place).unit <
        ((Interval.ofParts m q).atPlace place).hi ↔
      (n : ℚ) * 10 ^ place < (4 * m + 2) * 2 ^ (q - 2) := by
    rw [← @Nat.cast_lt ℚ, hhi, hunit, mul_lt_mul_iff_of_pos_right hpos]
  have hclosed : ((Interval.ofParts m q).atPlace place).closed = decide (m % 2 = 0) := rfl
  unfold Interval.contains
  rw [hclosed]
  split
  next heven =>
    -- an even mantissa takes the ends of its interval
    rw [decide_eq_true_iff, hle, hle']
    have := of_decide_eq_true heven
    exact ⟨fun ⟨h, h'⟩ => ⟨h, h', fun hodd => by omega⟩, fun h => ⟨h.ge, h.le⟩⟩
  next hodd =>
    -- an odd one leaves them to its neighbours
    rw [decide_eq_true_iff, hlt, hlt']
    have hodd' : m % 2 = 1 := by
      have := of_decide_eq_false (Bool.eq_false_of_not_eq_true hodd)
      omega
    exact ⟨fun h => ⟨h.1.le, h.2.le, fun _ => h⟩, fun h => h.strict hodd'⟩

/-! ## The choice of a multiple -/

/-- The multiple that represents an interval is positive and lies inside. -/
theorem contains_of_pick {i : Interval} {n : Nat} (h : i.pick = some n) :
    0 < n ∧ i.contains n = true := by
  unfold Interval.pick at h
  extract_lets below at h
  split at h
  next hbelow habove =>
    obtain rfl := Option.some.inj h
    rw [Bool.and_eq_true, decide_eq_true_iff] at hbelow
    simp only [divideToEven]
    split
    · exact hbelow
    · split
      · exact ⟨Nat.succ_pos _, habove⟩
      · rcases Nat.mod_two_eq_zero_or_one (i.value / i.unit) with hmod | hmod <;> rw [hmod]
        · exact hbelow
        · exact ⟨Nat.succ_pos _, habove⟩
  next hbelow _ =>
    obtain rfl := Option.some.inj h
    rwa [Bool.and_eq_true, decide_eq_true_iff] at hbelow
  next _ habove =>
    obtain rfl := Option.some.inj h
    exact ⟨Nat.succ_pos _, habove⟩
  next => cases h

/-- A multiple that is less than half a unit from the middle. -/
def Interval.Middle (i : Interval) (n : Nat) : Prop :=
  2 * i.value < (2 * n + 1) * i.unit ∧ 2 * (n * i.unit) < 2 * i.value + i.unit

/-- A multiple that is at most half a unit from the middle. -/
def Interval.Near (i : Interval) (n : Nat) : Prop :=
  2 * i.value ≤ (2 * n + 1) * i.unit ∧ 2 * (n * i.unit) ≤ 2 * i.value + i.unit

/-- Where an interval contains what is close to its middle, it is represented by a multiple near the
middle. -/
theorem near_of_pick {i : Interval} {n : Nat} (h : i.pick = some n) (hunit : 0 < i.unit)
    (hle : i.unit ≤ i.value) (hmiddle : ∀ n, i.Middle n → i.contains n = true) : i.Near n := by
  have hround := divideToEven_close i.value hunit
  have hdiv := Nat.div_add_mod i.value i.unit
  have hmod := Nat.mod_lt i.value hunit
  have hpos : 0 < i.value / i.unit := Nat.div_pos hle hunit
  unfold Interval.pick at h
  dsimp only at h
  generalize i.value / i.unit = a at *
  generalize i.value % i.unit = r at *
  split at h
  next =>
    -- both neighbours are inside: the nearer one is taken
    obtain rfl := Option.some.inj h
    exact hround
  next _ habove =>
    -- only the lower one is inside, so the upper one cannot be the nearer
    obtain rfl := Option.some.inj h
    have hnot : ¬i.Middle (a + 1) := fun hin => by
      rw [hmiddle _ hin] at habove
      cases habove
    refine ⟨?_, by linarith⟩
    by_contra hlt
    exact hnot ⟨by linarith, by linarith⟩
  next hbelow _ =>
    -- only the upper one is inside
    obtain rfl := Option.some.inj h
    have hnot : ¬i.Middle a := fun hin => by
      rw [hmiddle _ hin, decide_eq_true hpos] at hbelow
      cases hbelow
    refine ⟨by linarith, ?_⟩
    by_contra hlt
    exact hnot ⟨by linarith, by linarith⟩
  next => cases h

/-- An interval that contains all multiples near its middle is represented. -/
theorem exists_pick {i : Interval} (hunit : 0 < i.unit) (hle : i.unit ≤ i.value)
    (hnear : ∀ n, i.Near n → i.contains n = true) : ∃ n, i.pick = some n := by
  have hdiv := Nat.div_add_mod i.value i.unit
  have hmod := Nat.mod_lt i.value hunit
  have hpos : 0 < i.value / i.unit := Nat.div_pos hle hunit
  unfold Interval.pick
  dsimp only
  generalize i.value / i.unit = a at *
  generalize i.value % i.unit = r at *
  rw [decide_eq_true hpos, Bool.true_and]
  have hsome : i.contains a = true ∨ i.contains (a + 1) = true := by
    rcases le_total (2 * r) i.unit with hhalf | hhalf
    · exact .inl (hnear a ⟨by linarith, by linarith⟩)
    · exact .inr (hnear (a + 1) ⟨by linarith, by linarith⟩)
  split
  next => exact ⟨_, rfl⟩
  next => exact ⟨_, rfl⟩
  next => exact ⟨_, rfl⟩
  next hbelow habove =>
    rw [hbelow, habove] at hsome
    rcases hsome with h | h <;> cases h

/-! ## The search -/

/-- What the search gives is the first place with a representative, and the representative. -/
theorem spec_of_search {i : Interval} {count : Nat} {place k : Int} {n : Nat}
    (h : search i count place = some (n, k)) :
    (i.atPlace k).pick = some n ∧ place - count < k ∧ k ≤ place ∧
      ∀ k', k < k' → k' ≤ place → (i.atPlace k').pick = none := by
  induction count generalizing place with
  | zero => cases h
  | succ count ih =>
    unfold search at h
    split at h
    next n' hpick =>
      obtain ⟨rfl, rfl⟩ := Prod.mk.inj (Option.some.inj h)
      exact ⟨hpick, by omega, le_rfl, fun k' hlo hhi => by omega⟩
    next hnone =>
      obtain ⟨hpick, hlo, hhi, hcoarser⟩ := ih h
      refine ⟨hpick, by omega, by omega, fun k' hlo' hhi' => ?_⟩
      rcases hhi'.eq_or_lt with rfl | hlt
      · exact hnone
      · exact hcoarser k' hlo' (by omega)

/-- The search ends at a place with a representative, if it gets there. -/
theorem exists_search {i : Interval} {count : Nat} {place k : Int} (hlo : place - count < k)
    (hhi : k ≤ place) (h : ∃ n, (i.atPlace k).pick = some n) :
    ∃ r, search i count place = some r := by
  induction count generalizing place with
  | zero => omega
  | succ count ih =>
    unfold search
    split
    next n _ => exact ⟨_, rfl⟩
    next hnone =>
      rcases hhi.eq_or_lt with rfl | hlt
      · obtain ⟨n, hn⟩ := h
        rw [hn] at hnone
        cases hnone
      · exact ih (by omega) (by omega)

/-! ## Numbers with a full step below them -/

/-- Not a power of two above the least exponent: the step below the number is as wide as the one
above. -/
def Regular (m : Nat) (q : Int) : Prop := ¬(m = Single.leadingBit ∧ -149 < q)

theorem roundsTo_of_abs_lt (hregular : Regular m q) {v : ℚ} (h : |v - m * 2 ^ q| < 2 ^ q / 2) :
    RoundsTo single v m q := by
  have hlower : single.lower m q = 4 * m - 2 := (lower_single m q).trans (if_neg hregular)
  rw [two_zpow_eq_quarters q] at h
  obtain ⟨hlo, hhi⟩ := abs_lt.1 h
  have hge : single.lower m q * 2 ^ (q - 2) < v := by
    rw [hlower]
    linarith
  have hle : v < (4 * m + 2) * 2 ^ (q - 2) := by linarith
  exact ⟨hge.le, hle.le, fun _ => ⟨hge, hle⟩⟩

/-- How far a multiple is from the number, in the units of the interval. -/
theorem abs_sub_mul_measure (m : Nat) (q place : Int) (n : Nat) :
    |(n : ℚ) * 10 ^ place - m * 2 ^ q| * measure q place =
      |(n : ℚ) * ((Interval.ofParts m q).atPlace place).unit -
        ((Interval.ofParts m q).atPlace place).value| := by
  rw [unit_eq, value_eq, ← mul_assoc, ← sub_mul, abs_mul, abs_of_pos (measure_pos q place)]

theorem half_mul_measure (m : Nat) (q place : Int) :
    (10 : ℚ) ^ place / 2 * measure q place =
      ((Interval.ofParts m q).atPlace place).unit / 2 := by
  rw [unit_eq, div_mul_eq_mul_div]

theorem middle_iff (m : Nat) (q place : Int) (n : Nat) :
    ((Interval.ofParts m q).atPlace place).Middle n ↔
      |(n : ℚ) * 10 ^ place - m * 2 ^ q| < (10 : ℚ) ^ place / 2 := by
  rw [← mul_lt_mul_iff_of_pos_right (measure_pos q place), abs_sub_mul_measure,
    half_mul_measure m, abs_lt]
  unfold Interval.Middle
  qify
  constructor <;> rintro ⟨hlo, hhi⟩ <;> constructor <;> linarith

theorem near_iff (m : Nat) (q place : Int) (n : Nat) :
    ((Interval.ofParts m q).atPlace place).Near n ↔
      |(n : ℚ) * 10 ^ place - m * 2 ^ q| ≤ (10 : ℚ) ^ place / 2 := by
  rw [← mul_le_mul_iff_of_pos_right (measure_pos q place), abs_sub_mul_measure,
    half_mul_measure m, abs_le]
  unfold Interval.Near
  qify
  constructor <;> rintro ⟨hlo, hhi⟩ <;> constructor <;> linarith

theorem unit_le_value (hm : 0 < m) {place : Int} (hle : (10 : ℚ) ^ place ≤ 2 ^ q) :
    ((Interval.ofParts m q).atPlace place).unit ≤ ((Interval.ofParts m q).atPlace place).value := by
  have hone : (1 : ℚ) ≤ m := by exact_mod_cast hm
  rw [← @Nat.cast_le ℚ, unit_eq, value_eq]
  refine mul_le_mul_of_nonneg_right (hle.trans ?_) (measure_pos q place).le
  exact le_mul_of_one_le_left (two_zpow_pos q).le hone

/-- On a grid that is not coarser than the step of the number, the nearest multiple is taken. -/
theorem abs_sub_le_of_pick (hm : 0 < m) (hregular : Regular m q) {place : Int} {n : Nat}
    (hle : (10 : ℚ) ^ place ≤ 2 ^ q)
    (h : ((Interval.ofParts m q).atPlace place).pick = some n) :
    |(n : ℚ) * 10 ^ place - m * 2 ^ q| ≤ (10 : ℚ) ^ place / 2 := by
  refine (near_iff m q place n).1 (near_of_pick h (unit_pos m q place) (unit_le_value hm hle) ?_)
  intro n hmiddle
  rw [middle_iff] at hmiddle
  exact (contains_iff hm place n).2 (roundsTo_of_abs_lt hregular (by linarith))

/-- A grid that is finer than the step of the number has a representative. -/
theorem exists_pick_of_lt (hm : 0 < m) (hregular : Regular m q) {place : Int}
    (hlt : (10 : ℚ) ^ place < 2 ^ q) :
    ∃ n, ((Interval.ofParts m q).atPlace place).pick = some n := by
  refine exists_pick (unit_pos m q place) (unit_le_value hm hlt.le) fun n hnear => ?_
  rw [near_iff] at hnear
  exact (contains_iff hm place n).2 (roundsTo_of_abs_lt hregular (by linarith))

/-- What the shortest decimal of such a number is. -/
theorem decimal_of_regular (hm : 0 < m) (hregular : Regular m q) (hq : -149 ≤ q) {n : Nat} {k : Int}
    (h : decimal m q = (n, k)) :
    ((Interval.ofParts m q).atPlace k).pick = some n ∧ -45 ≤ k ∧ k ≤ 39 ∧
      (k = 39 ∨ (2 : ℚ) ^ q ≤ 10 ^ (k + 1)) := by
  have hfine : (10 : ℚ) ^ (-45 : Int) < 2 ^ q :=
    lt_of_lt_of_le (by norm_num) (two_zpow_le hq)
  have hfinest := exists_pick_of_lt hm hregular hfine
  obtain ⟨r, hr⟩ :
      ∃ r, search (Interval.ofParts m q) (coarsest - finest).toNat coarsest = some r :=
    exists_search (by decide) (by decide) hfinest
  rw [decimal, hr, Option.getD_some] at h
  subst h
  obtain ⟨hpick, -, hhi, hcoarser⟩ := spec_of_search hr
  refine ⟨hpick, ?_, hhi, ?_⟩
  · by_contra hlt
    obtain ⟨n', hn'⟩ := hfinest
    rw [hcoarser (-45) (by omega) (by decide)] at hn'
    cases hn'
  · rcases hhi.eq_or_lt with heq | hlt
    · exact .inl heq
    · refine .inr (not_lt.1 fun hgrid => ?_)
      obtain ⟨n', hn'⟩ := exists_pick_of_lt hm hregular hgrid
      rw [hcoarser (k + 1) (by omega) (by omega)] at hn'
      cases hn'

end Shortest

end ParticleDynamics
