import ParticleDynamics.Proofs.Single.Finite

/-!
# The value of a number

A finite number stands for a rational (`Single.toRat`): its mantissa, scaled by its exponent, under
its sign. Among parts that come from bits the exponents decide and the mantissas only where the
exponents agree, so finite numbers compare exactly as these rationals do
(`Single.compare_parts`); the two zeros have the same value and are equal.
-/

namespace ParticleDynamics

namespace Single

open Float.Model (Format UnpackedFloat)
open Float.Model.UnpackedFloat (Sign)

/-! ## Aligned mantissas -/

/-- Mantissas and exponents as rounding leaves them: canonical, but for the greatest exponent. -/
structure Aligned (mantissa : Nat) (exponent : Int) : Prop where
  /-- the mantissa has at most 24 bits -/
  mantissa_lt : mantissa < 2 ^ 24
  /-- the least exponent -/
  exponent_ge : -149 ≤ exponent
  /-- the leading bit is set unless the exponent is the least one -/
  full : exponent = -149 ∨ 2 ^ 23 ≤ mantissa

theorem Canonical.aligned {mantissa : Nat} {exponent : Int} (h : Canonical mantissa exponent) :
    Aligned mantissa exponent :=
  ⟨h.mantissa_lt, h.exponent_ge, h.full⟩

theorem Aligned.canonical {mantissa : Nat} {exponent : Int} (h : Aligned mantissa exponent)
    (hle : exponent ≤ 104) : Canonical mantissa exponent :=
  ⟨h.mantissa_lt, h.exponent_ge, hle, h.full⟩

/-- What a mantissa stands for under an exponent. -/
def scaled (mantissa : Nat) (exponent : Int) : ℚ := mantissa * 2 ^ exponent

theorem scaled_nonneg (mantissa : Nat) (exponent : Int) : 0 ≤ scaled mantissa exponent := by
  unfold scaled
  positivity

theorem scaled_pos {mantissa : Nat} (hpos : 0 < mantissa) (exponent : Int) :
    0 < scaled mantissa exponent := by
  unfold scaled
  positivity

theorem scaled_lt_scaled_iff {mantissa mantissa' : Nat} (exponent : Int) :
    scaled mantissa exponent < scaled mantissa' exponent ↔ mantissa < mantissa' := by
  unfold scaled
  rw [mul_lt_mul_iff_left₀ (zpow_pos two_pos exponent), Nat.cast_lt]

theorem scaled_le_scaled_iff {mantissa mantissa' : Nat} (exponent : Int) :
    scaled mantissa exponent ≤ scaled mantissa' exponent ↔ mantissa ≤ mantissa' := by
  unfold scaled
  rw [mul_le_mul_iff_left₀ (zpow_pos two_pos exponent), Nat.cast_le]

theorem natCast_mul_scaled (count mantissa : Nat) (exponent : Int) :
    count * scaled mantissa exponent = scaled (count * mantissa) exponent := by
  rw [scaled, scaled, Nat.cast_mul, mul_assoc]

/-- Zeros behind a mantissa lower its exponent. -/
theorem scaled_shift (mantissa count : Nat) (exponent : Int) :
    scaled (mantissa * 2 ^ count) (exponent - count) = scaled mantissa exponent := by
  unfold scaled
  rw [Nat.cast_mul, Nat.cast_pow, Nat.cast_ofNat, mul_assoc, ← zpow_natCast,
    ← zpow_add₀ two_ne_zero, add_sub_cancel]

/-- A mantissa with its leading bit outweighs every mantissa under a smaller exponent. -/
theorem scaled_lt_of_exponent_lt {mantissa mantissa' : Nat} {exponent exponent' : Int}
    (hlt : mantissa < 2 ^ 24) (hfull : 2 ^ 23 ≤ mantissa') (h : exponent < exponent') :
    scaled mantissa exponent < scaled mantissa' exponent' := by
  have hgap : exponent' - ((exponent' - exponent).toNat : Int) = exponent := by omega
  have hdouble : 2 ^ 1 ≤ 2 ^ (exponent' - exponent).toNat :=
    Nat.pow_le_pow_right two_pos (by omega)
  rw [← scaled_shift mantissa' (exponent' - exponent).toNat exponent', hgap, scaled_lt_scaled_iff]
  calc mantissa < 2 ^ 23 * 2 ^ 1 := hlt
    _ ≤ mantissa' * 2 ^ (exponent' - exponent).toNat := Nat.mul_le_mul hfull hdouble

/-- **Different aligned mantissas are apart** by one part in `2^24` of the greater one. -/
theorem scaled_gap {mantissa mantissa' : Nat} {exponent exponent' : Int}
    (h : Aligned mantissa exponent) (h' : Aligned mantissa' exponent')
    (hlt : scaled mantissa exponent < scaled mantissa' exponent') :
    (2 ^ 24 : ℕ) * scaled mantissa exponent ≤ (2 ^ 24 - 1 : ℕ) * scaled mantissa' exponent' := by
  have hge := h.exponent_ge
  have hge' := h'.exponent_ge
  rcases Int.lt_trichotomy exponent exponent' with hless | rfl | hmore
  · -- under the smaller exponent the greater mantissa has more than 24 bits
    have hgap : exponent' - ((exponent' - exponent).toNat : Int) = exponent := by omega
    have hlead : 2 ^ 24 ≤ mantissa' * 2 ^ (exponent' - exponent).toNat :=
      calc 2 ^ 24 = 2 ^ 23 * 2 ^ 1 := rfl
        _ ≤ mantissa' * 2 ^ (exponent' - exponent).toNat :=
          Nat.mul_le_mul (h'.full.resolve_left (by omega)) (Nat.pow_le_pow_right two_pos (by omega))
    have hmantissa := h.mantissa_lt
    rw [← scaled_shift mantissa' (exponent' - exponent).toNat exponent', hgap, natCast_mul_scaled,
      natCast_mul_scaled, scaled_le_scaled_iff]
    omega
  · have hmantissa := h'.mantissa_lt
    rw [scaled_lt_scaled_iff] at hlt
    rw [natCast_mul_scaled, natCast_mul_scaled, scaled_le_scaled_iff]
    omega
  · have hfull : 2 ^ 23 ≤ mantissa := h.full.resolve_left (by omega)
    exact absurd hlt (scaled_lt_of_exponent_lt h'.mantissa_lt hfull hmore).not_gt

/-- **Aligned mantissas compare by their exponents first.** Alignment leaves one exponent for each
magnitude, so the exponents decide unless they are equal. -/
theorem compare_scaled {mantissa mantissa' : Nat} {exponent exponent' : Int}
    (h : Aligned mantissa exponent) (h' : Aligned mantissa' exponent') :
    (compare exponent exponent').then (compare mantissa mantissa') =
      compare (scaled mantissa exponent) (scaled mantissa' exponent') := by
  have hge := h.exponent_ge
  have hge' := h'.exponent_ge
  rcases Int.lt_trichotomy exponent exponent' with hlt | rfl | hgt
  · have hfull : 2 ^ 23 ≤ mantissa' := h'.full.resolve_left (by omega)
    have hless := scaled_lt_of_exponent_lt h.mantissa_lt hfull hlt
    rw [Int.compare_eq_lt.2 hlt, compare_lt_iff_lt.2 hless]
    rfl
  · rw [show compare exponent exponent = .eq from Int.compare_eq_eq.2 rfl, Ordering.then]
    rcases Nat.lt_trichotomy mantissa mantissa' with hlt | rfl | hgt
    · rw [Nat.compare_eq_lt.2 hlt, compare_lt_iff_lt.2 ((scaled_lt_scaled_iff _).2 hlt)]
    · rw [Nat.compare_eq_eq.2 rfl, compare_eq_iff_eq.2 rfl]
    · rw [Nat.compare_eq_gt.2 hgt, compare_gt_iff_gt.2 ((scaled_lt_scaled_iff _).2 hgt)]
  · have hfull : 2 ^ 23 ≤ mantissa := h.full.resolve_left (by omega)
    have hmore := scaled_lt_of_exponent_lt h'.mantissa_lt hfull hgt
    rw [Int.compare_eq_gt.2 hgt, compare_gt_iff_gt.2 hmore]
    rfl

/-- Changing both signs reverses a comparison. -/
theorem compare_neg_neg (a b : ℚ) : compare (-a) (-b) = compare b a := by
  rcases lt_trichotomy a b with hlt | rfl | hgt
  · rw [compare_gt_iff_gt.2 (neg_lt_neg hlt), compare_gt_iff_gt.2 hlt]
  · rw [compare_eq_iff_eq.2 rfl, compare_eq_iff_eq.2 rfl]
  · rw [compare_lt_iff_lt.2 (neg_lt_neg hgt), compare_lt_iff_lt.2 hgt]

/-! ## Values -/

/-- What a sign multiplies with. -/
def factor : Sign → ℚ
  | .negative => -1
  | .positive => 1

/-- What parts stand for, zero where they are not finite. -/
def amount : UnpackedFloat → ℚ
  | .finite sign mantissa exponent _ => factor sign * scaled mantissa exponent
  | _ => 0

/-- The value of a finite number. -/
def toRat (x : Single) : ℚ := amount x.parts

theorem isFinite_of_zero {x : Single} {sign : Sign} (h : x.parts = .zero sign) :
    x.isFinite = true := by
  rw [isFinite, h]

theorem isFinite_of_finite {x : Single} {sign : Sign} {mantissa : Nat} {exponent : Int}
    {hpos : 0 < mantissa} (h : x.parts = .finite sign mantissa exponent hpos) :
    x.isFinite = true := by
  rw [isFinite, h]

theorem toRat_of_zero {x : Single} {sign : Sign} (h : x.parts = .zero sign) : x.toRat = 0 := by
  rw [toRat, h]
  rfl

theorem toRat_of_finite {x : Single} {sign : Sign} {mantissa : Nat} {exponent : Int}
    {hpos : 0 < mantissa} (h : x.parts = .finite sign mantissa exponent hpos) :
    x.toRat = factor sign * scaled mantissa exponent := by
  rw [toRat, h, amount]

theorem isFinite_congr {x y : Single} (h : x.parts = y.parts) : x.isFinite = y.isFinite := by
  rw [isFinite, isFinite, h]

theorem toRat_congr {x y : Single} (h : x.parts = y.parts) : x.toRat = y.toRat := by
  rw [toRat, toRat, h]

theorem ne_notANumber_of_isFinite {x : Single} (h : x.isFinite = true) :
    x.parts ≠ .notANumber := by
  intro hnone
  rw [isFinite, hnone] at h
  cases h

/-- **Finite numbers compare as their values.** -/
theorem compare_parts {x y : Single} (hx : x.isFinite = true) (hy : y.isFinite = true) :
    x.parts.compare y.parts = some (compare x.toRat y.toRat) := by
  unfold toRat
  rcases parts_of_isFinite hx with ⟨sign, hx⟩ | ⟨sign, mantissa, exponent, hpos, hx⟩ <;>
    rcases parts_of_isFinite hy with ⟨sign', hy⟩ | ⟨sign', mantissa', exponent', hpos', hy⟩
  case inl.inl =>
    -- the two zeros are one number, whatever their signs
    rw [hx, hy]
    exact congrArg some (compare_eq_iff_eq.2 rfl).symm
  case inl.inr =>
    -- zero against another number goes by the sign of the other
    have hsome := scaled_pos hpos' exponent'
    rw [hx, hy]
    cases sign' with
    | negative => exact congrArg some (compare_gt_iff_gt.2 (by simpa [amount, factor])).symm
    | positive => exact congrArg some (compare_lt_iff_lt.2 (by simpa [amount, factor])).symm
  case inr.inl =>
    have hsome := scaled_pos hpos exponent
    rw [hx, hy]
    cases sign with
    | negative => exact congrArg some (compare_lt_iff_lt.2 (by simpa [amount, factor])).symm
    | positive => exact congrArg some (compare_gt_iff_gt.2 (by simpa [amount, factor])).symm
  case inr.inr =>
    -- canonical parts are compared by exponent and mantissa, and that is the order of the values
    have hsome := scaled_pos hpos exponent
    have hsome' := scaled_pos hpos' exponent'
    have haligned := (canonical_of_parts hx).aligned
    have haligned' := (canonical_of_parts hy).aligned
    rw [hx, hy]
    cases sign <;> cases sign' <;>
      simp only [UnpackedFloat.compare, amount, factor, one_mul, neg_mul, Option.some.injEq]
    case negative.negative =>
      rw [compare_scaled haligned haligned', compare_neg_neg, Std.OrientedOrd.eq_swap,
        Ordering.swap_swap]
    case negative.positive =>
      exact (compare_lt_iff_lt.2 (by linarith)).symm
    case positive.negative =>
      exact (compare_gt_iff_gt.2 (by linarith)).symm
    case positive.positive =>
      exact compare_scaled haligned haligned'

theorem le_iff_toRat {x y : Single} (hx : x.isFinite = true) (hy : y.isFinite = true) :
    x ≤ y ↔ x.toRat ≤ y.toRat := by
  simp [le_iff_parts, compare_parts hx hy, Std.LawfulBCmp.isLE_iff_le]

theorem beq_iff_toRat {x y : Single} (hx : x.isFinite = true) (hy : y.isFinite = true) :
    (x == y) = true ↔ x.toRat = y.toRat := by
  change x.value.toModel.unpack.beq y.value.toModel.unpack = true ↔ _
  simp [unpack_value, UnpackedFloat.beq, compare_parts hx hy]

theorem lt_iff_toRat {x y : Single} (hx : x.isFinite = true) (hy : y.isFinite = true) :
    x < y ↔ x.toRat < y.toRat := by
  rw [lt_iff_parts, compare_parts hx hy, Option.some.injEq, compare_lt_iff_lt]

end Single

end ParticleDynamics
