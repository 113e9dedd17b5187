import Mathlib.Data.Nat.Bitwise
import ParticleDynamics.Proofs.Decimal.Rounding
import ParticleDynamics.Proofs.Single.Finite

/-!
# Finite numbers from their parts

A finite number of single precision is given by its sign and the parts that `Single.kind` reads off
its bits: they are those of a number of the format (`Single.holds_of_kind`), and put together they
are the number again (`Single.ofParts_of_kind`). So a negative zero keeps its sign. The numbers with
such parts are the finite ones of the arithmetic (`Single.isFinite_iff_kind`).
-/

namespace ParticleDynamics

namespace Single

open Float.Model (Format UnpackedFloat)

variable {x : Single} {m : Nat} {q : Int}

/-- The parts of a number are found in one of two ways, according to its exponent field. -/
theorem kind_eq_finite (h : x.kind = .finite m q) :
    (x.bits.toNat / leadingBit % 256 = 0 ∧ m = x.bits.toNat % leadingBit ∧ q = -149) ∨
      (0 < x.bits.toNat / leadingBit % 256 ∧ x.bits.toNat / leadingBit % 256 < 255 ∧
        m = x.bits.toNat % leadingBit + leadingBit ∧
        q = (x.bits.toNat / leadingBit % 256 : Nat) - 150) := by
  have hfield : x.bits.toNat / leadingBit % 256 < 256 := Nat.mod_lt _ (by decide)
  unfold kind at h
  dsimp only at h
  generalize x.bits.toNat / leadingBit % 256 = field at *
  split at h
  · split at h <;> cases h
  · split at h
    next hzero =>
      obtain ⟨rfl, rfl⟩ := Kind.finite.inj h
      exact .inl ⟨hzero, rfl, rfl⟩
    next =>
      obtain ⟨rfl, rfl⟩ := Kind.finite.inj h
      exact .inr ⟨by omega, by omega, rfl, rfl⟩

/-- The parts of a finite number are those of a number of the format. -/
theorem holds_of_kind (h : x.kind = .finite m q) : BinaryFormat.Holds .single m q := by
  have hfraction : x.bits.toNat % leadingBit < leadingBit := Nat.mod_lt _ (by decide)
  have hbit : leadingBit = 2 ^ 23 := rfl
  rcases kind_eq_finite h with ⟨-, rfl, rfl⟩ | ⟨hlo, hhi, rfl, rfl⟩
  · refine ⟨?_, le_rfl, by decide, .inr rfl⟩
    change _ < 2 ^ 24
    omega
  · refine ⟨?_, ?_, ?_, .inl ?_⟩
    · change _ < 2 ^ 24
      omega
    · change (-149 : Int) ≤ _
      omega
    · change _ ≤ (104 : Int)
      omega
    · change 2 ^ 23 ≤ _
      omega

/-- Adding the sign bit to a magnitude. -/
theorem toNat_signed {negative : Bool} {magnitude : Nat} (h : magnitude < 2 ^ 31) :
    (signed negative magnitude.toUInt32).bits.toNat =
      magnitude + if negative then 2 ^ 31 else 0 := by
  have hmod : magnitude % 4294967296 = magnitude := Nat.mod_eq_of_lt (by omega)
  cases negative with
  | false => simp [signed, hmod]
  | true =>
    have hor := Nat.two_pow_add_eq_or_of_lt h 1
    have hsign : signBit.toNat = 2 ^ 31 := rfl
    simp only [signed, if_true, UInt32.toNat_or, hsign, UInt32.toNat_ofNat', Nat.toUInt32_eq]
    rw [hmod, Nat.or_comm, ← Nat.mul_one (2 ^ 31), ← hor, Nat.mul_one, Nat.add_comm]

/-- The sign bit is the highest one. -/
theorem isNegative_iff (x : Single) : x.isNegative = true ↔ 2 ^ 31 ≤ x.bits.toNat := by
  have hlt := x.bits.toNat_lt
  have hsign : signBit.toNat = 2 ^ 31 := rfl
  have hand : (x.bits &&& signBit).toNat = (x.bits.toNat.testBit 31).toNat * 2 ^ 31 := by
    rw [UInt32.toNat_and, hsign, Nat.and_two_pow]
  have hzero : x.bits &&& signBit = 0 ↔ x.bits.toNat.testBit 31 = false := by
    rw [← UInt32.toNat_inj, hand]
    cases x.bits.toNat.testBit 31 <;> simp
  have htest : x.bits.toNat.testBit 31 = true ↔ 2 ^ 31 ≤ x.bits.toNat := by
    rw [Nat.testBit_eq_decide_div_mod_eq, decide_eq_true_iff]
    omega
  rw [isNegative, bne_iff_ne, Ne, hzero, Bool.not_eq_false, htest]

/-- **A finite number is put together from its sign and its parts.** -/
theorem ofParts_of_kind (h : x.kind = .finite m q) : ofParts x.isNegative m q = x := by
  have hlt := x.bits.toNat_lt
  have hbit : leadingBit = 8388608 := rfl
  have hmagnitude : (q + 149).toNat * leadingBit + m = x.bits.toNat % 2 ^ 31 := by
    rcases kind_eq_finite h with ⟨hfield, rfl, rfl⟩ | ⟨hlo, hhi, rfl, rfl⟩
    · rw [hbit] at hfield ⊢
      omega
    · rw [hbit] at hlo hhi ⊢
      omega
  have hbits : (ofParts x.isNegative m q).bits = x.bits := by
    rw [← UInt32.toNat_inj, ofParts, hmagnitude, toNat_signed (Nat.mod_lt _ (by decide))]
    split
    next hnegative =>
      have := (isNegative_iff x).1 hnegative
      omega
    next hpositive =>
      have := mt (isNegative_iff x).2 hpositive
      omega
  exact congrArg Single.mk hbits

/-! ## Finite numbers -/

/-- The exponent field, as the arithmetic reads it. -/
theorem toNat_unpackExponent (x : Single) :
    (@UnpackedFloat.unpackExponent Format.binary32 x.bits.toBitVec).toNat =
      x.bits.toNat / leadingBit % 256 := by
  have hextract : @UnpackedFloat.unpackExponent Format.binary32 x.bits.toBitVec =
      x.bits.toBitVec.extractLsb' 23 8 := rfl
  rw [hextract, BitVec.extractLsb'_toNat, Nat.shiftRight_eq_div_pow]
  rfl

/-- A number is finite when its parts can be read off its bits. -/
theorem isFinite_iff_kind (x : Single) : x.isFinite = true ↔ ∃ m q, x.kind = .finite m q := by
  have hgreatest : @UnpackedFloat.unpackExponent Format.binary32 x.bits.toBitVec = -1#8 ↔
      x.bits.toNat / leadingBit % 256 = 255 := by
    rw [← toNat_unpackExponent x, ← BitVec.toNat_inj]
    rfl
  have hkind : (∃ m q, x.kind = .finite m q) ↔ ¬x.bits.toNat / leadingBit % 256 = 255 := by
    unfold kind
    dsimp only
    split
    next h => split <;> simp [h]
    next h => split <;> simp [h]
  rw [hkind, ← hgreatest, isFinite, parts, UnpackedFloat.unpack]
  dsimp only
  by_cases hfield : @UnpackedFloat.unpackExponent Format.binary32 x.bits.toBitVec = -1#8
  · -- infinities and what is no number have the greatest exponent field
    rw [if_pos hfield, iff_false_right (not_not.2 hfield)]
    by_cases hfraction : @UnpackedFloat.unpackMantissa Format.binary32 x.bits.toBitVec = 0#23
    · rw [if_pos hfraction]
      exact Bool.false_ne_true
    · rw [if_neg hfraction]
      exact Bool.false_ne_true
  · -- all else is zero, or has a mantissa with or without a leading bit
    rw [if_neg hfield, iff_true_right hfield]
    by_cases hzero : @UnpackedFloat.unpackExponent Format.binary32 x.bits.toBitVec = 0#8
    · rw [if_pos hzero]
      by_cases hfraction : @UnpackedFloat.unpackMantissa Format.binary32 x.bits.toBitVec = 0#23
      · rw [dif_pos hfraction]
      · rw [dif_neg hfraction]
    · rw [if_neg hzero]

end Single

end ParticleDynamics
