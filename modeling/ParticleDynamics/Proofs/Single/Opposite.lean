import ParticleDynamics.Proofs.Single.Arithmetic

/-!
# Opposite numbers

Two numbers are opposite if they differ in their sign alone, or are both a zero (`Single.Opposite`).
Rounding looks at the mantissa and leaves the sign alone, so it leads from opposite results to
opposite numbers (`Single.OppositeParts.rounded`). The two differences of two finite numbers are
opposite, the squares of opposite numbers have the same parts, and quotients of opposite numbers by
the same divisor are opposite again. All of this holds through rounding, overflow and underflow.

Zeros need their exception: a difference that is zero is a positive zero on both sides.
-/

namespace ParticleDynamics

namespace Single

open Float.Model (Format UnpackedFloat)
open Float.Model.UnpackedFloat (Sign)

/-- Parts that differ in their sign alone. Zeros do so whatever signs they have. -/
inductive OppositeParts : UnpackedFloat → UnpackedFloat → Prop where
  /-- infinities of both signs -/
  | infinity (sign : Sign) : OppositeParts (.infinity sign) (.infinity (-sign))
  /-- two zeros -/
  | zero (sign sign' : Sign) : OppositeParts (.zero sign) (.zero sign')
  /-- the same mantissa and exponent under both signs -/
  | finite (sign : Sign) (mantissa : Nat) (exponent : Int) (hpos : 0 < mantissa) :
    OppositeParts (.finite sign mantissa exponent hpos) (.finite (-sign) mantissa exponent hpos)

/-- Numbers that differ in their sign alone, or are both a zero. -/
def Opposite (x y : Single) : Prop := OppositeParts x.parts y.parts

theorem sign_neg_neg (sign : Sign) : - -sign = sign := by cases sign <;> rfl

theorem OppositeParts.symm {a b : UnpackedFloat} (h : OppositeParts a b) : OppositeParts b a := by
  cases h with
  | infinity sign =>
    have hback := OppositeParts.infinity (-sign)
    rwa [sign_neg_neg] at hback
  | zero sign sign' => exact .zero sign' sign
  | finite sign mantissa exponent hpos =>
    have hback := OppositeParts.finite (-sign) mantissa exponent hpos
    rwa [sign_neg_neg] at hback

/-! ## Rounding -/

/-- **Packing leads from opposite results to opposite numbers**, as it computes the two fields of a
number without looking at its sign. -/
theorem OppositeParts.rounded {a b : UnpackedFloat} (h : OppositeParts a b) :
    OppositeParts (UnpackedFloat.unpack Format.binary32 (UnpackedFloat.pack Format.binary32 a))
      (UnpackedFloat.unpack Format.binary32 (UnpackedFloat.pack Format.binary32 b)) := by
  cases h with
  | infinity sign =>
    rw [unpack_pack_infinity, unpack_pack_infinity]
    exact .infinity sign
  | zero sign sign' =>
    rw [unpack_pack (x := .zero sign) nofun, unpack_pack (x := .zero sign') nofun]
    exact .zero sign sign'
  | finite sign mantissa exponent hpos =>
    -- the fields of exponent and mantissa do not depend on the sign
    obtain ⟨field, fraction, hpack⟩ := exists_packComponents exponent hpos
    have hnumber : UnpackedFloat.unpack Format.binary32 (UnpackedFloat.pack Format.binary32
        (.finite sign mantissa exponent hpos)) ≠ .notANumber := unpack_pack_ne_notANumber nofun
    rw [hpack, unpack_packComponents] at hnumber
    rw [hpack, hpack, unpack_packComponents, unpack_packComponents]
    split
    next hgreatest =>
      rw [if_pos hgreatest] at hnumber
      split
      next => exact .infinity sign
      next hsome => exact absurd (if_neg hsome) hnumber
    next =>
      split
      next => split <;> [exact .zero sign (-sign); exact .finite sign _ _ _]
      next => exact .finite sign _ _ _

theorem oppositeParts_roundWithAccuracy (sign : Sign) (mantissa : Nat) (exponent : Int)
    (accuracy : UnpackedFloat.Accuracy) :
    OppositeParts
      (UnpackedFloat.roundWithAccuracy Format.binary32 sign mantissa exponent accuracy)
      (UnpackedFloat.roundWithAccuracy Format.binary32 (-sign) mantissa exponent accuracy) := by
  simp only [UnpackedFloat.roundWithAccuracy]
  split
  next => exact .zero sign (-sign)
  next => exact .finite sign _ _ _

/-- Rounding a mantissa with a sign and the mantissa with the other sign. -/
theorem oppositeParts_normalize (mantissa exponent : Int) (zeroSign zeroSign' : Sign) :
    OppositeParts (UnpackedFloat.normalize Format.binary32 mantissa exponent zeroSign)
      (UnpackedFloat.normalize Format.binary32 (-mantissa) exponent zeroSign') := by
  rcases Int.lt_trichotomy mantissa 0 with hneg | rfl | hpos
  · have hneg' : 0 < -mantissa := by omega
    simp only [UnpackedFloat.normalize, Int.compare_eq_lt.2 hneg, Int.compare_eq_gt.2 hneg']
    exact oppositeParts_roundWithAccuracy .negative _ _ _
  · exact .zero zeroSign zeroSign'
  · have hpos' : -mantissa < 0 := by omega
    simp only [UnpackedFloat.normalize, Int.compare_eq_gt.2 hpos, Int.compare_eq_lt.2 hpos',
      Int.neg_neg]
    exact oppositeParts_roundWithAccuracy .positive _ _ _

/-! ## Arithmetic -/

variable {x y x' y' : Single}

/-- **The two differences of two finite numbers are opposite**, even if they overflow. Where both
are zero they have the same sign and not opposite ones, which is why this is about being opposite
and not about negation. -/
theorem opposite_sub (hx : x.isFinite = true) (hy : y.isFinite = true) :
    Opposite (x - y) (y - x) := by
  rw [Opposite, parts_sub, parts_sub]
  refine OppositeParts.rounded ?_
  rcases parts_of_isFinite hx with ⟨sign, hx'⟩ | ⟨sign, mantissa, exponent, hpos, hx'⟩ <;>
    rcases parts_of_isFinite hy with ⟨sign', hy'⟩ | ⟨sign', mantissa', exponent', hpos', hy'⟩ <;>
    rw [hx', hy']
  case inl.inl =>
    simp only [UnpackedFloat.sub]
    split <;> split <;> exact .zero _ _
  case inl.inr => exact (OppositeParts.finite sign' mantissa' exponent' hpos').symm
  case inr.inl => exact .finite sign mantissa exponent hpos
  case inr.inr =>
    simp only [UnpackedFloat.sub, Int.min_comm exponent' exponent]
    rw [← Int.neg_sub (sign.apply _)]
    exact oppositeParts_normalize ..

/-- The squares of opposite numbers have the same parts. -/
theorem Opposite.parts_mul_self (h : Opposite x y) : (x * x).parts = (y * y).parts := by
  rw [parts_mul, parts_mul]
  rw [Opposite] at h
  generalize x.parts = a, y.parts = b at h
  congr 2
  cases h with
  | infinity sign => cases sign <;> rfl
  | zero sign sign' => cases sign <;> cases sign' <;> rfl
  | finite sign mantissa exponent hpos => cases sign <;> rfl

/-- The parts of a sum follow from those of what is added. -/
theorem parts_add_congr (hx : x.parts = x'.parts) (hy : y.parts = y'.parts) :
    (x + y).parts = (x' + y').parts := by
  rw [parts_add, parts_add, hx, hy]

theorem parts_sqrt_congr (h : x.parts = y.parts) :
    (Scalar.sqrt x).parts = (Scalar.sqrt y).parts := by
  rw [parts_sqrt, parts_sqrt, h]

theorem lt_congr (hx : x.parts = x'.parts) (hy : y.parts = y'.parts) : x < y ↔ x' < y' := by
  rw [lt_iff_parts, lt_iff_parts, hx, hy]

/-- The parts of what is above zero. -/
theorem parts_of_zero_lt (h : 0 < x) :
    x.parts = .infinity .positive ∨
      ∃ mantissa exponent hpos, x.parts = .finite .positive mantissa exponent hpos := by
  rcases parts_of_zero_le (le_of_lt h) with hx | ⟨sign, hx⟩ | hx
  · exact .inl hx
  · have hcompare := lt_iff_parts.1 h
    rw [hx] at hcompare
    cases hcompare
  · exact .inr hx

/-- **Quotients of opposite numbers by the same divisor are opposite**, if the numbers are finite
and the divisor is above zero. -/
theorem Opposite.div (h : Opposite x y) (hx : x.isFinite = true) {divisor divisor' : Single}
    (hdivisor : divisor.parts = divisor'.parts) (hpos : 0 < divisor) :
    Opposite (x / divisor) (y / divisor') := by
  rw [Opposite, parts_div, parts_div, ← hdivisor]
  refine OppositeParts.rounded ?_
  rw [isFinite] at hx
  rw [Opposite] at h
  generalize x.parts = a, y.parts = b at h hx
  cases h with
  | infinity sign => cases hx
  | zero sign sign' =>
    rcases parts_of_zero_lt hpos with hd | ⟨mantissa, exponent, hpos, hd⟩ <;> rw [hd] <;>
      exact .zero _ _
  | finite sign mantissa exponent hm =>
    rcases parts_of_zero_lt hpos with hd | ⟨mantissa', exponent', hpos, hd⟩ <;> rw [hd]
    · exact .zero _ _
    · have hsign : -sign / Sign.positive = -(sign / Sign.positive) := by cases sign <;> rfl
      simp only [UnpackedFloat.div, hsign]
      exact oppositeParts_roundWithAccuracy ..

/-! ## Changing the sign -/

/-- The bits that are kept under the other sign. -/
theorem unpackExponent_neg (x : Single) :
    @UnpackedFloat.unpackExponent Format.binary32 (-x).bits.toBitVec =
      @UnpackedFloat.unpackExponent Format.binary32 x.bits.toBitVec := by
  have hmask : @UnpackedFloat.unpackExponent Format.binary32 signBit.toBitVec = 0#8 := rfl
  have hxor (a b : BitVec 32) : @UnpackedFloat.unpackExponent Format.binary32 (a ^^^ b) =
      @UnpackedFloat.unpackExponent Format.binary32 a ^^^
        @UnpackedFloat.unpackExponent Format.binary32 b := BitVec.extractLsb_xor
  exact (hxor _ _).trans (by rw [hmask, BitVec.xor_zero])

theorem unpackMantissa_neg (x : Single) :
    @UnpackedFloat.unpackMantissa Format.binary32 (-x).bits.toBitVec =
      @UnpackedFloat.unpackMantissa Format.binary32 x.bits.toBitVec := by
  have hmask : @UnpackedFloat.unpackMantissa Format.binary32 signBit.toBitVec = 0#23 := rfl
  have hxor (a b : BitVec 32) : @UnpackedFloat.unpackMantissa Format.binary32 (a ^^^ b) =
      @UnpackedFloat.unpackMantissa Format.binary32 a ^^^
        @UnpackedFloat.unpackMantissa Format.binary32 b := BitVec.extractLsb_xor
  exact (hxor _ _).trans (by rw [hmask, BitVec.xor_zero])

/-- The sign bit is the only one that changes. -/
theorem unpackSign_neg (x : Single) :
    Sign.ofBitVec (@UnpackedFloat.unpackSign Format.binary32 (-x).bits.toBitVec) =
      -Sign.ofBitVec (@UnpackedFloat.unpackSign Format.binary32 x.bits.toBitVec) := by
  have hmask : @UnpackedFloat.unpackSign Format.binary32 signBit.toBitVec = 1#1 := rfl
  have hxor (a b : BitVec 32) : @UnpackedFloat.unpackSign Format.binary32 (a ^^^ b) =
      @UnpackedFloat.unpackSign Format.binary32 a ^^^
        @UnpackedFloat.unpackSign Format.binary32 b := BitVec.extractLsb_xor
  have hflip (bit : BitVec 1) : Sign.ofBitVec (bit ^^^ 1#1) = -Sign.ofBitVec bit := by
    rcases BitVec.eq_zero_or_eq_one bit with rfl | rfl <;> rfl
  rw [← hflip, ← hmask, ← hxor]
  rfl

/-- **Changing the sign changes the sign of the parts** and nothing else. -/
theorem parts_neg (x : Single) : (-x).parts = x.parts.neg := by
  rw [parts, parts, UnpackedFloat.unpack, UnpackedFloat.unpack]
  simp only [unpackExponent_neg, unpackMantissa_neg, unpackSign_neg]
  split
  next => split <;> rfl
  next =>
    split
    next => split <;> rfl
    next => rfl

/-- **Opposite numbers are the same number up to the sign.** A comparison of singles does not see
the sign of a zero. -/
theorem Opposite.beq_neg (h : Opposite x y) : (x == -y) = true := by
  change UnpackedFloat.beq x.value.toModel.unpack (-y).value.toModel.unpack = true
  rw [unpack_value, unpack_value, parts_neg]
  rw [Opposite] at h
  generalize x.parts = a, y.parts = b at h
  cases h with
  | infinity sign =>
    rw [UnpackedFloat.neg, sign_neg_neg]
    exact beq_self (by simp)
  | zero sign sign' => rfl
  | finite sign mantissa exponent hpos =>
    rw [UnpackedFloat.neg, sign_neg_neg]
    exact beq_self (by simp)

end Single

end ParticleDynamics
