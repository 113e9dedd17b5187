import ParticleDynamics.Proofs.Single.Arithmetic

/-!
# Quotients compared with one

Dividing by a number that is not greater gives at least one (`Single.one_le_div`), and dividing by a
greater one gives less than one by one part in `2^24` at least (`Single.div_le_of_lt`), because
finite numbers are that far apart. So rounding does not blur which of two numbers is the greater:
what the quotient leaves of one is positive in the second case only, and so is its square
(`Single.one_sub_le_zero`, `Single.sliver_le_one_sub`, `Single.mul_self_bne_zero`).
-/

namespace ParticleDynamics

namespace Single

open Float.Model (Format UnpackedFloat)

/-! ## Quotients from one on -/

theorem zero_lt_iff {x : Single} (hx : x.isFinite = true) : 0 < x ↔ 0 < x.toRat := by
  rw [lt_iff_toRat isFinite_zero hx, toRat_zero]

/-- A quotient by a number that is not greater is at least one. -/
theorem one_le_div {x y : Single} (hy : y.isFinite = true) (hpos : 0 < y) (hle : y ≤ x) :
    1 ≤ x / y := by
  have hx : 0 ≤ x := le_trans (le_of_lt hpos) hle
  rcases zero_le_iff.1 hx with hx' | ⟨hx', -⟩
  · have hparts := parts_div x y
    have hinfinite : UnpackedFloat.div Format.binary32 x.parts y.parts = .infinity .positive := by
      rcases parts_of_zero_le (le_of_lt hpos) with hy' | ⟨sign, hy'⟩ | ⟨_, _, _, hy'⟩
      · rw [isFinite, hy'] at hy
        cases hy
      · rw [zero_lt_iff hy, toRat_of_zero hy'] at hpos
        exact absurd hpos (lt_irrefl 0)
      · rw [hx', hy']
        rfl
    rw [hinfinite, unpack_pack_infinity] at hparts
    exact le_infinity isFinite_one hparts
  · rw [zero_lt_iff hy] at hpos
    rw [le_iff_toRat hy hx'] at hle
    refine (rounds_div hx' hy hpos.ne').le_of_le 1 isFinite_one ?_
    rwa [toRat_one, one_le_div₀ hpos]

/-- What is at least one leaves nothing of one. -/
theorem one_sub_le_zero {x : Single} (h : 1 ≤ x) : 1 - x ≤ 0 := by
  have hx : 0 ≤ x := le_trans (by decide) h
  rcases zero_le_iff.1 hx with hx' | ⟨hx', -⟩
  · have hparts := parts_sub 1 x
    simp only [hx', parts_one, UnpackedFloat.sub] at hparts
    rw [unpack_pack_infinity] at hparts
    exact infinity_le hparts isFinite_zero
  · rw [le_iff_toRat isFinite_one hx', toRat_one] at h
    refine (rounds_sub isFinite_one hx').ge_of_ge 0 isFinite_zero ?_
    rw [toRat_one, toRat_zero]
    linarith

/-! ## Quotients below zero -/

/-- Nothing that is at most zero brings one down. -/
theorem one_le_one_sub {x : Single} (h : x ≤ 0) : 1 ≤ 1 - x := by
  obtain ⟨order, hcompare, -⟩ := le_iff_parts.1 h
  have hnumber := (ne_notANumber_of_compare hcompare).1
  have hfinite (hx : x.isFinite = true) : 1 ≤ 1 - x := by
    rw [le_iff_toRat hx isFinite_zero, toRat_zero] at h
    refine (rounds_sub isFinite_one hx).le_of_le 1 isFinite_one ?_
    rw [toRat_one]
    linarith
  rcases hx : x.parts with (_ | _) | _ | sign | ⟨sign, mantissa, exponent, hpos⟩
  · have hparts := parts_sub 1 x
    simp only [hx, parts_one, UnpackedFloat.sub] at hparts
    rw [unpack_pack_infinity] at hparts
    exact le_infinity isFinite_one hparts
  · exact absurd h (not_infinity_le hx isFinite_zero)
  · exact absurd hx hnumber
  · exact hfinite (isFinite_of_zero hx)
  · exact hfinite (isFinite_of_finite hx)

/-- What is not a number leaves nothing that compares. -/
theorem not_one_sub_le_of_notANumber {x y : Single} (h : x.parts = .notANumber) : ¬ 1 - x ≤ y := by
  have hparts := parts_sub 1 x
  simp only [h, parts_one, UnpackedFloat.sub] at hparts
  rw [unpack_pack_notANumber] at hparts
  intro hle
  obtain ⟨order, hcompare, -⟩ := le_iff_parts.1 hle
  exact (ne_notANumber_of_compare hcompare).1 hparts

/-! ## Quotients below one -/

/-- One part in `2^24`. -/
def sliver : Single := ⟨0x33800000⟩

theorem toRat_sliver : sliver.toRat = 1 / 2 ^ 24 := by
  have hparts : sliver.parts = .finite .positive (2 ^ 23) (-47) (by decide) := rfl
  rw [toRat_of_finite hparts, factor, scaled]
  norm_num

theorem toRat_one_sub_sliver : (1 - sliver).toRat = 1 - 1 / 2 ^ 24 := by
  have hparts : (1 - sliver).parts = .finite .positive (2 ^ 24 - 1) (-24) (by decide) := rfl
  rw [toRat_of_finite hparts, factor, scaled]
  norm_num

/-- **A quotient by a greater number is below one**, by at least one part in `2^24`. -/
theorem div_le_of_lt {x y : Single} (hx : x.isFinite = true) (hy : y.isFinite = true)
    (hnonneg : 0 ≤ x) (hlt : x < y) : 0 ≤ x / y ∧ x / y ≤ 1 - sliver := by
  rw [le_iff_toRat isFinite_zero hx, toRat_zero] at hnonneg
  rw [lt_iff_toRat hx hy] at hlt
  have hpos : 0 < y.toRat := hnonneg.trans_lt hlt
  obtain ⟨mantissa, exponent, h, hvalue⟩ := exists_scaled_of_isFinite hx
  obtain ⟨mantissa', exponent', h', hvalue'⟩ := exists_scaled_of_isFinite hy
  rw [abs_of_nonneg hnonneg] at hvalue
  rw [abs_of_pos hpos] at hvalue'
  have hgap := scaled_gap h.aligned h'.aligned (hvalue ▸ hvalue' ▸ hlt)
  rw [← hvalue, ← hvalue'] at hgap
  have hrounds := rounds_div hx hy hpos.ne'
  refine ⟨hrounds.zero_le (div_nonneg hnonneg hpos.le), hrounds.ge_of_ge _ rfl ?_⟩
  rw [toRat_one_sub_sliver, div_le_iff₀ hpos]
  norm_num at hgap ⊢
  linarith

/-- What is below one by one part in `2^24` leaves as much. -/
theorem sliver_le_one_sub {x : Single} (hnonneg : 0 ≤ x) (hle : x ≤ 1 - sliver) :
    sliver ≤ 1 - x ∧ 1 - x ≤ 1 := by
  have hx : x.isFinite = true := isFinite_of_mem isFinite_zero rfl hnonneg hle
  rw [le_iff_toRat isFinite_zero hx, toRat_zero] at hnonneg
  rw [le_iff_toRat hx rfl, toRat_one_sub_sliver] at hle
  have hrounds := rounds_sub isFinite_one hx
  rw [toRat_one] at hrounds
  refine ⟨hrounds.le_of_le sliver rfl ?_, hrounds.ge_of_ge 1 isFinite_one ?_⟩
  · rw [toRat_sliver]
    linarith
  · rw [toRat_one]
    linarith

/-- The square of a number from one part in `2^24` to one does not vanish. -/
theorem mul_self_bne_zero {x : Single} (hle : sliver ≤ x) (hle' : x ≤ 1) :
    (x * x == 0) = false := by
  have hx : x.isFinite = true := isFinite_of_mem rfl isFinite_one hle hle'
  rw [le_iff_toRat rfl hx, toRat_sliver] at hle
  rw [le_iff_toRat hx isFinite_one, toRat_one] at hle'
  -- one part in `2^48`
  have hleast : (⟨0x27800000⟩ : Single).toRat = 1 / 2 ^ 48 := by
    have hparts : (⟨0x27800000⟩ : Single).parts =
        .finite .positive (2 ^ 23) (-71) (by decide) := rfl
    rw [toRat_of_finite hparts, factor, scaled]
    norm_num
  have hfew : (⟨0x27800000⟩ : Single).isFinite = true := rfl
  obtain ⟨hfinite, hmem, -⟩ := (rounds_mul hx hx).mem hfew isFinite_one
    (by rw [hleast]; nlinarith) (by rw [toRat_one]; nlinarith)
  rw [hleast] at hmem
  rw [Bool.eq_false_iff, Ne, beq_iff_toRat hfinite isFinite_zero, toRat_zero]
  norm_num at hmem
  linarith

/-! ## The zero without a sign -/

/-- No bit is set of the zero without a sign. -/
theorem eq_zero_of_parts {x : Single} (h : x.parts = .zero .positive) : x = 0 := by
  obtain ⟨bits⟩ := x
  rw [parts, UnpackedFloat.unpack] at h
  dsimp only at h
  split at h
  · split at h <;> cases h
  · split at h
    next hexponent =>
      split at h
      next hmantissa =>
        have hsign : @UnpackedFloat.unpackSign Format.binary32 bits.toBitVec = 0#1 := by
          by_contra hone
          rw [UnpackedFloat.Sign.ofBitVec, if_neg hone] at h
          cases h
        -- exponent, mantissa and sign are all there is of a word
        have hbits : bits.toNat = 0 := by
          have hexponent' := congrArg BitVec.toNat hexponent
          have hmantissa' := congrArg BitVec.toNat hmantissa
          have hsign' := congrArg BitVec.toNat hsign
          simp [UnpackedFloat.unpackExponent, UnpackedFloat.unpackMantissa,
            UnpackedFloat.unpackSign, Nat.shiftRight_eq_div_pow] at hexponent' hmantissa' hsign'
          have hlt := bits.toNat_lt
          omega
        exact congrArg Single.mk (UInt32.toNat_inj.1 hbits)
      next => cases h
    next => cases h

end Single

end ParticleDynamics
