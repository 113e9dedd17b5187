import Mathlib
import ParticleDynamics.Single

/-!
# What the bits of a number mean

Arithmetic on `Single` goes through the arithmetic of the core library, which takes bits apart into
a sign, a mantissa and an exponent, computes with these, and puts the result together again. Here
the parts of a number are named (`Single.parts`), and nothing is lost when parts are packed into
bits and taken out again (`Single.unpack_pack`).

Parts that come from bits are **canonical**: the mantissa has its leading bit unless the exponent is
the least one. This is what lets two numbers be compared by their exponents first.
-/

namespace ParticleDynamics

namespace Single

open Float.Model (Format UnpackedFloat totalExponent)

/-- The sign, mantissa and exponent that the bits of a number stand for. -/
def parts (x : Single) : UnpackedFloat := UnpackedFloat.unpack Format.binary32 x.bits.toBitVec

/-! ## Canonical parts -/

/-- The mantissas and exponents that finite bits can stand for. -/
structure Canonical (mantissa : Nat) (exponent : Int) : Prop where
  /-- the mantissa has at most 24 bits -/
  mantissa_lt : mantissa < 2 ^ 24
  /-- the least exponent -/
  exponent_ge : -149 ≤ exponent
  /-- the greatest exponent -/
  exponent_le : exponent ≤ 104
  /-- the leading bit is set unless the exponent is the least one -/
  full : exponent = -149 ∨ 2 ^ 23 ≤ mantissa

/-- A mantissa with its leading bit in front. -/
theorem toNat_leading_append (fraction : BitVec 23) :
    (1#1 ++ fraction).toNat = 2 ^ 23 + fraction.toNat := by
  rw [BitVec.toNat_append, ← Nat.shiftLeft_add_eq_or_of_lt fraction.isLt]
  rfl

/-- Finite bits stand for canonical parts. -/
theorem canonical_of_unpack {bits : BitVec 32} {sign : UnpackedFloat.Sign} {mantissa : Nat}
    {exponent : Int} {hpos : 0 < mantissa}
    (h : UnpackedFloat.unpack Format.binary32 bits = .finite sign mantissa exponent hpos) :
    Canonical mantissa exponent := by
  have hfraction : (@UnpackedFloat.unpackMantissa Format.binary32 bits).toNat < 2 ^ 23 :=
    (@UnpackedFloat.unpackMantissa Format.binary32 bits).isLt
  have hexponent : (@UnpackedFloat.unpackExponent Format.binary32 bits).toNat < 2 ^ 8 :=
    (@UnpackedFloat.unpackExponent Format.binary32 bits).isLt
  have hbias : Format.binary32.exponentBias = 127 := rfl
  simp only [UnpackedFloat.unpack, hbias] at h
  split at h
  · -- the greatest exponent field is kept for what is not finite
    split at h <;> cases h
  next hfinite =>
    have hne : (@UnpackedFloat.unpackExponent Format.binary32 bits).toNat ≠ 255 :=
      fun heq => hfinite (BitVec.eq_of_toNat_eq heq)
    split at h
    next hzero =>
      split at h
      · cases h
      · -- without a leading bit the exponent is the least one
        cases h
        simp only [hzero, BitVec.toNat_ofNat] at *
        exact ⟨by omega, by omega, by omega, .inl (by omega)⟩
    next hnormal =>
      cases h
      have hne' : (@UnpackedFloat.unpackExponent Format.binary32 bits).toNat ≠ 0 :=
        fun heq => hnormal (BitVec.eq_of_toNat_eq heq)
      have hlead := toNat_leading_append (@UnpackedFloat.unpackMantissa Format.binary32 bits)
      exact ⟨by omega, by omega, by omega, .inr (by omega)⟩

theorem canonical_of_parts {x : Single} {sign : UnpackedFloat.Sign} {mantissa : Nat}
    {exponent : Int} {hpos : 0 < mantissa} (h : x.parts = .finite sign mantissa exponent hpos) :
    Canonical mantissa exponent :=
  canonical_of_unpack h

/-! ## Parts survive being packed -/

/-- Unpacking the three fields of a bit pattern. -/
theorem unpack_packComponents (sign : UnpackedFloat.Sign) (exponent : BitVec 8)
    (fraction : BitVec 23) :
    UnpackedFloat.unpack Format.binary32
      (UnpackedFloat.packComponents Format.binary32 sign exponent fraction) =
        if exponent = -1#8 then if fraction = 0#23 then .infinity sign else .notANumber
        else if exponent = 0#8 then
          if h : fraction = 0#23 then .zero sign
          else .finite sign fraction.toNat (exponent.toNat - 149)
            (by simpa [BitVec.toNat_pos, BitVec.pos_iff_ne_zero] using h)
        else .finite sign (1#1 ++ fraction).toNat (exponent.toNat - 150)
          (by rw [toNat_leading_append]; omega) := by
  have hbias : Format.binary32.exponentBias = 127 := rfl
  simp only [UnpackedFloat.unpack, UnpackedFloat.unpackMantissa_packComponents,
    UnpackedFloat.unpackExponent_packComponents, UnpackedFloat.unpackSign_packComponents,
    UnpackedFloat.Sign.ofBitVec_toBitVec, hbias]
  split
  · rfl
  · split
    · split
      · rfl
      · congr 1
        omega
    · congr 1

/-- Different small numbers are different as bits. -/
theorem ofNat_ne_ofNat {width n m : Nat} (hn : n < 2 ^ width) (hm : m < 2 ^ width) (h : n ≠ m) :
    BitVec.ofNat width n ≠ BitVec.ofNat width m := by
  intro heq
  have hsame := congrArg BitVec.toNat heq
  rw [BitVec.toNat_ofNat, BitVec.toNat_ofNat, Nat.mod_eq_of_lt hn, Nat.mod_eq_of_lt hm] at hsame
  exact h hsame

/-- The bits of a mantissa with its leading bit, which is left out, under any exponent but the least
and the greatest. -/
theorem unpack_normal (sign : UnpackedFloat.Sign) {mantissa biased : Nat}
    (hlead : 2 ^ 23 ≤ mantissa) (hlt : mantissa < 2 ^ 24) (hleast : 0 < biased)
    (hgreatest : biased < 255) :
    UnpackedFloat.unpack Format.binary32
      (UnpackedFloat.packComponents Format.binary32 sign (BitVec.ofNat 8 biased)
        (BitVec.ofNat 23 mantissa)) =
          .finite sign mantissa (biased - 150) (by omega) := by
  have hnan : BitVec.ofNat 8 biased ≠ -1#8 :=
    ofNat_ne_ofNat (m := 255) (by omega) (by decide) (by omega)
  have hzero : BitVec.ofNat 8 biased ≠ 0#8 := ofNat_ne_ofNat (by omega) (by decide) (by omega)
  rw [unpack_packComponents, if_neg hnan, if_neg hzero]
  congr 1
  · rw [toNat_leading_append, BitVec.toNat_ofNat]
    omega
  · rw [BitVec.toNat_ofNat]
    omega

/-- The bits of a mantissa without a leading bit, which belongs to the least exponent. -/
theorem unpack_subnormal (sign : UnpackedFloat.Sign) {mantissa : Nat} (hpos : 0 < mantissa)
    (hlt : mantissa < 2 ^ 23) :
    UnpackedFloat.unpack Format.binary32
      (UnpackedFloat.packComponents Format.binary32 sign 0#8 (BitVec.ofNat 23 mantissa)) =
        .finite sign mantissa (-149) hpos := by
  have hsome : BitVec.ofNat 23 mantissa ≠ 0#23 :=
    ofNat_ne_ofNat hlt (by decide) (Nat.ne_of_gt hpos)
  rw [unpack_packComponents, if_neg (by decide), if_pos rfl, dif_neg hsome]
  congr 1
  rw [BitVec.toNat_ofNat, Nat.mod_eq_of_lt hlt]

/-- Packing canonical parts loses nothing. -/
theorem unpack_pack_finite {sign : UnpackedFloat.Sign} {mantissa : Nat} {exponent : Int}
    (hpos : 0 < mantissa) (h : Canonical mantissa exponent) :
    UnpackedFloat.unpack Format.binary32
      (UnpackedFloat.pack Format.binary32 (.finite sign mantissa exponent hpos)) =
        .finite sign mantissa exponent hpos := by
  obtain ⟨hlt, hge, hle, hfull⟩ := h
  have hbias : Format.binary32.exponentBias = 127 := rfl
  have hbits : Format.binary32.mantissaBits = 24 := rfl
  have hbiased : (exponent + (127 : Nat) + (23 : Nat)).toNat = (exponent + 150).toNat := by omega
  have hsmall : ¬ 2 ^ 8 ≤ (exponent + 150).toNat + 1 := by omega
  simp only [UnpackedFloat.pack, hbias, hbits, hbiased, if_neg hsmall]
  by_cases hnormal : mantissa.log2 + 1 = 24
  · have hlead : 2 ^ 23 ≤ mantissa := (Nat.le_log2 (by omega)).1 (by omega)
    rw [if_pos hnormal, unpack_normal sign hlead hlt (by omega) (by omega)]
    congr 1
    omega
  · have hfew : mantissa < 2 ^ 23 := by
      by_contra hlead
      exact hnormal (by rw [(Nat.log2_eq_iff (by omega)).2 ⟨Nat.not_lt.1 hlead, hlt⟩])
    -- a canonical mantissa lacks its leading bit only at the least exponent
    have hleast : exponent = -149 := hfull.resolve_right (by omega)
    rw [if_neg hnormal, unpack_subnormal sign hpos hfew, hleast]

/-- A result of the core library, packed and taken apart again. -/
theorem unpack_pack {x : UnpackedFloat}
    (h : ∀ sign mantissa exponent hpos, x = .finite sign mantissa exponent hpos →
      Canonical mantissa exponent) :
    UnpackedFloat.unpack Format.binary32 (UnpackedFloat.pack Format.binary32 x) = x := by
  cases x with
  | notANumber => rw [UnpackedFloat.pack, UnpackedFloat.unpack_packedNaN]
  | infinity sign =>
    rw [UnpackedFloat.pack, UnpackedFloat.packedInfinity, unpack_packComponents]
    rfl
  | zero sign => rw [UnpackedFloat.pack, UnpackedFloat.unpack_packedZero]
  | finite sign mantissa exponent hpos => exact unpack_pack_finite hpos (h _ _ _ _ rfl)

/-- The number in the arithmetic of the core library has the parts that its bits stand for. -/
@[simp] theorem unpack_value (x : Single) : x.value.toModel.unpack = x.parts :=
  unpack_pack fun _ _ _ _ h => canonical_of_unpack h

/-- The number with a packed value has the parts that were packed. -/
theorem parts_ofValue_pack {x : UnpackedFloat}
    (h : ∀ sign mantissa exponent hpos, x = .finite sign mantissa exponent hpos →
      Canonical mantissa exponent) :
    (ofValue (.ofModel (.pack x))).parts = x :=
  unpack_pack h

end Single

end ParticleDynamics
