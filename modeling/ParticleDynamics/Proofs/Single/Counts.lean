import ParticleDynamics.Proofs.Single.Order

/-!
# Counts as numbers

A count of at most `2^24` is a number of single precision exactly. So such counts compare as numbers
the way they compare as counts (`Single.ofCount_lt_iff`), the smaller number is the number of the
smaller count (`Single.minimum_ofCount`), and the count comes back from its number
(`Single.toWord_ofCount`).

The conversion goes through a product with a power of ten, the zeroth one. Its mantissa is the
wanted one with zeros behind, which rounding cuts off again (`Single.round_of_trailing`).
-/

namespace ParticleDynamics

namespace Single

open Float.Model (Format UnpackedFloat)
open Float.Model.UnpackedFloat (Sign)

/-- The greatest count up to which all counts are numbers of single precision. -/
def exactCounts : Nat := 16777216

/-! ## The parts of a count -/

/-- The mantissa of a count is the count with its leading bit moved into place. -/
theorem exists_mantissa {n : Nat} (hpos : 0 < n) (hle : n ≤ exactCounts) :
    ∃ mantissa, mantissa.log2 = 23 ∧ mantissa * 2 ^ n.log2 = n * 2 ^ 23 := by
  rcases Nat.lt_or_ge n (2 ^ 24) with hlt | hge
  · exact ⟨n <<< (23 - n.log2), leading_of_lt hpos hlt⟩
  · obtain rfl : n = 2 ^ 24 := Nat.le_antisymm hle hge
    exact ⟨2 ^ 23, by decide, by decide⟩

/-- The parts of a number whose mantissa has all its bits in place. -/
theorem unpack_pack_full {mantissa : Nat} {exponent : Int} (hpos : 0 < mantissa)
    (hfull : mantissa.log2 = 23) (hge : -149 ≤ exponent) (hle : exponent ≤ 104) :
    UnpackedFloat.unpack Format.binary32
      (UnpackedFloat.pack Format.binary32 (.finite .positive mantissa exponent hpos)) =
        .finite .positive mantissa exponent hpos := by
  obtain ⟨hlead, htop⟩ := (Nat.log2_eq_iff (Nat.ne_of_gt hpos)).1 hfull
  exact unpack_pack_finite hpos ⟨htop, hge, hle, .inr hlead⟩

/-- The parts of one, as the zeroth power of ten. -/
theorem unpack_one : (Float32.ofBits 1065353216).toModel.unpack =
    .finite .positive (2 ^ 23) (-23) (by decide) :=
  rfl

/-- Few counts are converted as words, and multiplied with one. -/
theorem toModel_ofNat_of_few {n mantissa : Nat} (hpos : 0 < n) (hfew : n < 2 ^ 23)
    (hfull : mantissa.log2 = 23) (hmantissa : mantissa * 2 ^ n.log2 = n * 2 ^ 23) :
    ∃ hpos, (Float32.ofNat n).toModel = .pack (.finite .positive mantissa (n.log2 - 23) hpos) := by
  have hlog : n.log2 < 23 := (Nat.log2_lt (Nat.ne_of_gt hpos)).2 hfew
  obtain ⟨hpos', hcount⟩ := ofNat_eq hpos hfull hmantissa
  obtain ⟨_, hround⟩ := round_of_trailing .positive hfull
    (show (-149 : Int) ≤ n.log2 - 23 by omega) 23
  have hword : n.toUInt64.toNat = n := UInt64.toNat_ofNat_of_lt' (Nat.lt_trans hfew (by decide))
  have hunpack : n.toUInt64.toFloat32.toModel.unpack =
      .finite .positive mantissa (n.log2 - 23) hpos' := by
    change UnpackedFloat.unpack _ (UnpackedFloat.pack _ (UnpackedFloat.ofNat _ n.toUInt64.toNat)) = _
    rw [hword, hcount, unpack_pack_full hpos' hfull (by omega) (by omega)]
  have hproduct : Float32.ofNat n = n.toUInt64.toFloat32 * Float32.ofBits 1065353216 := by
    change Float32.ofScientific n false 0 = _
    rw [Float32.ofScientific, dif_pos ⟨hfew, by decide⟩]
    rfl
  refine ⟨hpos', ?_⟩
  rw [hproduct]
  change Float32.Model.pack (UnpackedFloat.mul _ n.toUInt64.toFloat32.toModel.unpack
    (Float32.ofBits 1065353216).toModel.unpack) = _
  rw [hunpack, unpack_one, UnpackedFloat.mul]
  exact congrArg Float32.Model.pack hround

/-- The core library reads a count without a power of ten as the count with zeros behind it. -/
theorem ofScientific_zero {n : Nat} (hne : n ≠ 0) :
    UnpackedFloat.ofScientific Format.binary32 n 0 =
      UnpackedFloat.roundWithAccuracy Format.binary32 .positive (n * 2 ^ 24) (-24) .exact := by
  have hbits : Format.binary32.mantissaBits = 24 := rfl
  have hgreat : ¬ (0 : Int) > 2 ^ Format.binary32.exponentBits := by decide
  have hsmall : ¬ (0 : Int) < -(2 ^ Format.binary32.exponentBits + n.log2) := by
    have hpower : (0 : Int) ≤ 2 ^ Format.binary32.exponentBits := by decide
    omega
  simp only [UnpackedFloat.ofScientific, dif_neg hne, if_neg hgreat, if_neg hsmall,
    if_pos (Int.le_refl 0), UnpackedFloat.mul, hbits, Nat.shiftLeft_eq, Int.toNat_zero,
    Nat.pow_zero, Nat.mul_one, Int.add_zero]
  rfl

/-- Any other count is multiplied with one as it is, with zeros behind it. -/
theorem toModel_ofNat_of_many {n mantissa : Nat} (hmany : ¬ n < 2 ^ 23)
    (hfull : mantissa.log2 = 23) (hmantissa : mantissa * 2 ^ n.log2 = n * 2 ^ 23) :
    ∃ hpos, (Float32.ofNat n).toModel = .pack (.finite .positive mantissa (n.log2 - 23) hpos) := by
  have hzeros : n * 2 ^ 24 = mantissa * 2 ^ (n.log2 + 1) := by
    rw [Nat.pow_succ 2 n.log2, ← Nat.mul_assoc, hmantissa, Nat.mul_assoc]
    rfl
  have hexponent : (-24 : Int) = n.log2 - 23 - (n.log2 + 1 : Nat) := by omega
  obtain ⟨hpos, hround⟩ := round_of_trailing .positive hfull
    (show (-149 : Int) ≤ n.log2 - 23 by omega) (n.log2 + 1)
  refine ⟨hpos, ?_⟩
  have hread : (Float32.ofNat n).toModel =
      .pack (UnpackedFloat.ofScientific Format.binary32 n 0) := by
    change (Float32.ofScientific n false 0).toModel = _
    rw [Float32.ofScientific, dif_neg fun h => hmany h.1]
    rfl
  rw [hread, ofScientific_zero (by omega), hzeros, hexponent, hround]

/-- The parts of a value whose parts were packed. -/
theorem parts_ofValue {value : Float32} {x : UnpackedFloat} (h : value.toModel = .pack x) :
    (ofValue value).parts =
      UnpackedFloat.unpack Format.binary32 (UnpackedFloat.pack Format.binary32 x) := by
  obtain ⟨model⟩ := value
  obtain rfl := h
  rfl

/-- **The parts of a count**: its mantissa, and the exponent that goes with it. -/
theorem parts_ofCount {n mantissa : Nat} (hpos : 0 < n) (hle : n ≤ exactCounts)
    (hfull : mantissa.log2 = 23) (hmantissa : mantissa * 2 ^ n.log2 = n * 2 ^ 23) :
    ∃ hpos, (ofCount n).parts = .finite .positive mantissa (n.log2 - 23) hpos := by
  have hlog : n.log2 < 25 :=
    (Nat.log2_lt (Nat.ne_of_gt hpos)).2 (Nat.lt_of_le_of_lt hle (by decide))
  obtain ⟨hpos', hmodel⟩ : ∃ hpos, (Float32.ofNat n).toModel =
      .pack (.finite .positive mantissa (n.log2 - 23) hpos) := by
    by_cases hfew : n < 2 ^ 23
    · exact toModel_ofNat_of_few hpos hfew hfull hmantissa
    · exact toModel_ofNat_of_many hfew hfull hmantissa
  refine ⟨hpos', ?_⟩
  rw [ofCount, parts_ofValue hmodel, unpack_pack_full hpos' hfull (by omega) (by omega)]

/-- Without anything counted the number is zero. -/
theorem parts_ofCount_zero : (ofCount 0).parts = .zero .positive := by
  rfl

/-- What a count has for parts. -/
theorem parts_ofCount_cases {n : Nat} (hle : n ≤ exactCounts) :
    (n = 0 ∧ (ofCount n).parts = .zero .positive) ∨
      ∃ mantissa hpos, 0 < n ∧ mantissa * 2 ^ n.log2 = n * 2 ^ 23 ∧
        (ofCount n).parts = .finite .positive mantissa (n.log2 - 23) hpos := by
  rcases Nat.eq_zero_or_pos n with rfl | hpos
  · exact .inl ⟨rfl, parts_ofCount_zero⟩
  · obtain ⟨mantissa, hfull, hmantissa⟩ := exists_mantissa hpos hle
    obtain ⟨hpos', hparts⟩ := parts_ofCount hpos hle hfull hmantissa
    exact .inr ⟨mantissa, hpos', hpos, hmantissa, hparts⟩

/-! ## Counts compare as their numbers -/

/-- A count with fewer bits is the smaller one. -/
theorem lt_of_log2_lt {m n : Nat} (h : m.log2 < n.log2) : m < n := by
  rw [Nat.log2_eq_log_two, Nat.log2_eq_log_two] at h
  exact Nat.log_monotone.reflect_lt h

/-- Mantissas of counts with as many bits compare as the counts. -/
theorem mantissa_lt_iff {m n mantissa mantissa' : Nat} (hlog : m.log2 = n.log2)
    (hmantissa : mantissa * 2 ^ m.log2 = m * 2 ^ 23)
    (hmantissa' : mantissa' * 2 ^ n.log2 = n * 2 ^ 23) : mantissa < mantissa' ↔ m < n := by
  rw [← Nat.mul_lt_mul_right (Nat.two_pow_pos n.log2), ← hlog, hmantissa, hlog, hmantissa',
    Nat.mul_lt_mul_right (Nat.two_pow_pos 23)]

/-- **Counts compare as their numbers do.** Counts of more than 24 bits are outside, because there
numbers begin to coincide. -/
theorem ofCount_lt_iff {m n : Nat} (hm : m ≤ exactCounts) (hn : n ≤ exactCounts) :
    ofCount m < ofCount n ↔ m < n := by
  rw [lt_iff_parts]
  rcases parts_ofCount_cases hm with ⟨rfl, hparts⟩ | ⟨mantissa, _, hpos, hmantissa, hparts⟩ <;>
    rcases parts_ofCount_cases hn with
      ⟨rfl, hparts'⟩ | ⟨mantissa', _, hpos', hmantissa', hparts'⟩ <;>
    simp only [hparts, hparts', UnpackedFloat.compare, Option.some.injEq]
  · simp
  · simpa using hpos'
  · simp
  · rcases Nat.lt_trichotomy m.log2 n.log2 with hlt | heq | hgt
    · rw [Int.compare_eq_lt.2 (by omega)]
      simp [lt_of_log2_lt hlt]
    · rw [Int.compare_eq_eq.2 (by omega), Ordering.eq_then, Nat.compare_eq_lt]
      exact mantissa_lt_iff heq hmantissa hmantissa'
    · rw [Int.compare_eq_gt.2 (by omega)]
      simp [Nat.le_of_lt (lt_of_log2_lt hgt)]

/-- A count is a number. -/
theorem isNumber_ofCount {n : Nat} (hle : n ≤ exactCounts) :
    Scalar.isNumber (ofCount n) = true := by
  change (ofCount n).value.toModel.unpack.beq (ofCount n).value.toModel.unpack = true
  rw [unpack_value]
  refine beq_self ?_
  rcases parts_ofCount_cases hle with ⟨-, hparts⟩ | ⟨mantissa, _, -, -, hparts⟩
  · rw [hparts]
    exact nofun
  · rw [hparts]
    exact nofun

/-- **The smaller number belongs to the smaller count.** -/
theorem minimum_ofCount {m n : Nat} (hm : m ≤ exactCounts) (hn : n ≤ exactCounts) :
    Scalar.minimum (ofCount m) (ofCount n) = ofCount (min m n) := by
  rw [Scalar.minimum, if_pos (isNumber_ofCount hm)]
  by_cases hlt : n < m
  · rw [if_pos ((ofCount_lt_iff hn hm).2 hlt), Nat.min_eq_right (Nat.le_of_lt hlt)]
  · rw [if_neg fun h => hlt ((ofCount_lt_iff hn hm).1 h), Nat.min_eq_left (Nat.not_lt.1 hlt)]

end Single

end ParticleDynamics
