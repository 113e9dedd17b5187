import ParticleDynamics.Proofs.Single.Counts

/-!
# One more than a number

In the normal range rounding keeps the leading bit of a mantissa, or carries it one place up
(`Single.exists_round`). So whatever is rounded away, one more than a number that is at least one is
again at least one, or an infinity, and its whole part as a word is not zero
(`Single.one_le_toWord_add_one`).
-/

namespace ParticleDynamics

namespace Single

open Float.Model (Format UnpackedFloat totalExponent)
open Float.Model.UnpackedFloat (Sign ExtendedMantissa)

/-! ## Rounding in the normal range -/

/-- Bits that are shifted out are lost at the end of a mantissa, not at its front. -/
theorem log2_div_two_pow (mantissa count : Nat) :
    (mantissa / 2 ^ count).log2 = mantissa.log2 - count := by
  rw [Nat.log2_eq_log_two, Nat.log2_eq_log_two, Nat.log_div_base_pow]

/-- Rounding a mantissa adds at most one to it. -/
theorem roundedMantissa_eq_or (em : ExtendedMantissa) :
    em.roundedMantissa = em.mantissa ∨ em.roundedMantissa = em.mantissa + 1 := by
  obtain ⟨mantissa, _ | _, _ | _⟩ := em
  · exact .inl rfl
  · exact .inl rfl
  · rcases Nat.mod_two_eq_zero_or_one mantissa with heven | hodd
    · exact .inl (congrArg (mantissa + ·) heven)
    · exact .inr (congrArg (mantissa + ·) hodd)
  · exact .inr rfl

/-- Of a long mantissa the first 24 bits are left. -/
theorem exists_shiftToTargetExponent {mantissa : Nat} (exponent : Int)
    (hlong : 23 ≤ mantissa.log2) (hnormal : -126 ≤ mantissa.log2 + exponent) :
    ∃ em, UnpackedFloat.shiftToTargetExponent Format.binary32 mantissa exponent .exact =
      (em, mantissa.log2 + exponent - 23) ∧ em.mantissa.log2 = 23 := by
  have hbits : Format.binary32.mantissaBits = 24 := rfl
  have hleast : Format.binary32.minExponent = -149 := rfl
  have hmove : (Format.binary32.targetExponent (totalExponent mantissa exponent) - exponent).toNat =
      mantissa.log2 - 23 := by
    simp only [Format.targetExponent, totalExponent, hbits, hleast]
    omega
  have hexponent : exponent + (mantissa.log2 - 23 : Nat) = mantissa.log2 + exponent - 23 := by omega
  refine ⟨(⟨mantissa, false, false⟩ : ExtendedMantissa) >>> (mantissa.log2 - 23), ?_, ?_⟩
  · simp only [UnpackedFloat.shiftToTargetExponent, UnpackedFloat.shiftToExponent, hmove,
      ExtendedMantissa.ofMantissaAndAccuracy, hexponent]
  · rw [mantissa_shiftRight, log2_div_two_pow]
    exact Nat.sub_sub_self hlong

/-- **Rounding keeps the leading bit** of a long mantissa, or carries it one place up. The carry is
the one case in which the exponent grows, and then the mantissa is a power of two. -/
theorem exists_roundWithAccuracy (sign : Sign) {mantissa : Nat} (exponent : Int)
    (hlong : 23 ≤ mantissa.log2) (hnormal : -126 ≤ mantissa.log2 + exponent) :
    ∃ rounded exponent' hpos,
      UnpackedFloat.roundWithAccuracy Format.binary32 sign mantissa exponent .exact =
        .finite sign rounded exponent' hpos ∧
      rounded.log2 = 23 ∧ mantissa.log2 + exponent - 23 ≤ exponent' := by
  obtain ⟨em, hfirst, hfull⟩ := exists_shiftToTargetExponent exponent hlong hnormal
  obtain ⟨hlead, htop⟩ := (Nat.log2_eq_iff (Nat.ne_of_gt (pos_of_full hfull))).1 hfull
  have hround := roundedMantissa_eq_or em
  have hlong' : 23 ≤ em.roundedMantissa.log2 := (Nat.le_log2 (by omega)).2 (by omega)
  -- the carry may have made the mantissa one bit longer, so it is aligned once more
  obtain ⟨last, hsecond, hfull'⟩ := exists_shiftToTargetExponent (mantissa.log2 + exponent - 23)
    hlong' (by omega)
  have hpos := pos_of_full hfull'
  refine ⟨last.mantissa, em.roundedMantissa.log2 + (mantissa.log2 + exponent - 23) - 23, hpos, ?_,
    hfull', by omega⟩
  simp only [UnpackedFloat.roundWithAccuracy, hfirst, hsecond]
  rw [dif_neg (Nat.ne_of_gt hpos)]

/-- **Rounding keeps the leading bit** in the normal range, or carries it one place up. -/
theorem exists_round (sign : Sign) {mantissa : Nat} (exponent : Int) (hpos : 0 < mantissa)
    (hnormal : -126 ≤ mantissa.log2 + exponent) :
    ∃ rounded exponent' hpos',
      UnpackedFloat.round Format.binary32 sign mantissa exponent =
        .finite sign rounded exponent' hpos' ∧
      rounded.log2 = 23 ∧ mantissa.log2 + exponent - 23 ≤ exponent' := by
  have hbits : Format.binary32.mantissaBits = 24 := rfl
  have hleast : Format.binary32.minExponent = -149 := rfl
  have hmove : (exponent - Format.binary32.targetExponent
      (totalExponent mantissa exponent)).toNat = 23 - mantissa.log2 := by
    simp only [Format.targetExponent, totalExponent, hbits, hleast]
    omega
  have hlog := log2_shiftLeft hpos (23 - mantissa.log2)
  have hlong : 23 ≤ (mantissa <<< (23 - mantissa.log2)).log2 := by omega
  obtain ⟨rounded, exponent', hpos', hround, hfull, hle⟩ := exists_roundWithAccuracy sign
    (exponent - (23 - mantissa.log2 : Nat)) hlong (by omega)
  refine ⟨rounded, exponent', hpos', ?_, hfull, by omega⟩
  simp only [UnpackedFloat.round, UnpackedFloat.decreaseExponent, hmove, hround]

/-- Parts whose exponent is too great are packed into an infinity. -/
theorem unpack_pack_great {sign : Sign} {mantissa : Nat} {exponent : Int} (hpos : 0 < mantissa)
    (hgreat : 104 < exponent) :
    UnpackedFloat.unpack Format.binary32
      (UnpackedFloat.pack Format.binary32 (.finite sign mantissa exponent hpos)) =
        .infinity sign := by
  have hbias : Format.binary32.exponentBias = 127 := rfl
  have hbits : Format.binary32.mantissaBits = 24 := rfl
  have hbiased : 2 ^ 8 ≤ (exponent + (127 : Nat) + (23 : Nat)).toNat + 1 := by omega
  simp only [UnpackedFloat.pack, hbias, hbits, if_pos hbiased]
  exact unpack_pack (x := .infinity sign) nofun

/-! ## Numbers from one on -/

/-- Parts of a number that is at least one. -/
def OneOrMore (x : UnpackedFloat) : Prop :=
  x = .infinity .positive ∨ ∃ mantissa exponent hpos,
    x = .finite .positive mantissa exponent hpos ∧ mantissa.log2 = 23 ∧ -23 ≤ exponent

theorem parts_one : (1 : Single).parts = .finite .positive (2 ^ 23) (-23) (by decide) := rfl

theorem oneOrMore_of_le {x : Single} (h : 1 ≤ x) : OneOrMore x.parts := by
  obtain ⟨order, hcompare, hle⟩ := le_iff_parts.1 h
  rw [parts_one] at hcompare
  rcases hx : x.parts with (_ | _) | _ | (_ | _) | ⟨_ | _, mantissa, exponent, hpos⟩ <;>
    simp only [hx, UnpackedFloat.compare, Option.some.injEq, reduceCtorEq] at hcompare <;>
    subst hcompare
  case finite.positive =>
    have hcanonical := canonical_of_parts hx
    have hgrow := isLE_compare_then.1 hle
    have hlead : 2 ^ 23 ≤ mantissa := hcanonical.full.resolve_left (by omega)
    exact .inr ⟨mantissa, exponent, hpos, rfl,
      (Nat.log2_eq_iff (Nat.ne_of_gt hpos)).2 ⟨hlead, hcanonical.mantissa_lt⟩, by omega⟩
  case infinity.positive => exact .inl rfl
  all_goals exact absurd hle (by decide)

theorem OneOrMore.ne_notANumber {x : UnpackedFloat} (h : OneOrMore x) : x ≠ .notANumber := by
  obtain rfl | ⟨mantissa, exponent, hpos, rfl, -, -⟩ := h
  · exact nofun
  · exact nofun

/-- **One more than a number that is at least one is at least one.** -/
theorem OneOrMore.add_one {x : UnpackedFloat} (h : OneOrMore x) :
    OneOrMore (UnpackedFloat.unpack Format.binary32 (UnpackedFloat.pack Format.binary32
      (UnpackedFloat.add Format.binary32 x (1 : Single).parts))) := by
  rw [parts_one]
  obtain rfl | ⟨mantissa, exponent, hpos, rfl, hfull, hexponent⟩ := h
  · exact .inl (unpack_pack (x := .infinity .positive) nofun)
  · -- both mantissas are aligned to the exponent of one
    obtain ⟨sum, hsum⟩ : ∃ sum, mantissa <<< (exponent + 23).toNat + 2 ^ 23 = sum := ⟨_, rfl⟩
    have hge : 2 ^ 23 ≤ sum := hsum ▸ Nat.le_add_left ..
    have hpos' : 0 < sum := by omega
    have hlong : 23 ≤ sum.log2 := (Nat.le_log2 (Nat.ne_of_gt hpos')).2 hge
    have hgreater : compare (sum : Int) 0 = .gt := Int.compare_eq_gt.2 (by omega)
    have hstay : 2 ^ 23 <<< ((-23 : Int) + 23).toNat = 2 ^ 23 := rfl
    have hmin : min exponent (-23) = -23 := by omega
    obtain ⟨rounded, exponent', hrounded, hround, hfull', hle⟩ := exists_round .positive (-23)
      hpos' (by omega)
    have hadd : UnpackedFloat.add Format.binary32 (.finite .positive mantissa exponent hpos)
        (.finite .positive (2 ^ 23) (-23) (by decide)) =
          .finite .positive rounded exponent' hrounded := by
      simp only [UnpackedFloat.add, UnpackedFloat.decreaseExponent, hmin, Sign.apply, Int.sub_neg,
        hstay, ← Int.natCast_add, hsum]
      simp only [UnpackedFloat.normalize, hgreater, Int.toNat_natCast, hround]
    rw [hadd]
    rcases lt_or_ge 104 exponent' with hgreat | hsmall
    · exact .inl (unpack_pack_great hrounded hgreat)
    · exact .inr ⟨rounded, exponent', hrounded, unpack_pack_full hrounded hfull' (by omega) hsmall,
        hfull', by omega⟩

/-- A number that is at least one has a whole part. -/
theorem one_le_toWord {x : Single} (h : OneOrMore x.parts) : 1 ≤ x.toWord.toNat := by
  rw [toNat_toWord]
  obtain hx | ⟨mantissa, exponent, hpos, hx, hfull, hexponent⟩ := h
  · rw [hx]
    decide
  · have hlead : 2 ^ 23 ≤ mantissa := ((Nat.log2_eq_iff (Nat.ne_of_gt hpos)).1 hfull).1
    have hwhole : 1 ≤ whole mantissa exponent := by
      unfold whole
      split
      next => exact Nat.mul_pos hpos (Nat.two_pow_pos _)
      next =>
        refine (Nat.one_le_div_iff (Nat.two_pow_pos _)).2 (Nat.le_trans ?_ hlead)
        exact Nat.pow_le_pow_right (by decide) (by omega)
    rw [hx, UnpackedFloat.toInt, roundToInt_eq]
    simp only [Sign.apply]
    omega

/-- **One more than a number that is at least one has a whole part**, whatever is rounded away. This
is what leaves a spare cell on an axis whatever the extent of a view is. -/
theorem one_le_toWord_add_one {x : Single} (h : 1 ≤ x) : 1 ≤ (x + 1).toWord.toNat := by
  have hsum : OneOrMore (x.value.add (1 : Single).value).toModel.unpack := by
    change OneOrMore (UnpackedFloat.unpack _ (UnpackedFloat.pack _ (UnpackedFloat.add _
      x.value.toModel.unpack (1 : Single).value.toModel.unpack)))
    rw [unpack_value, unpack_value]
    exact (oneOrMore_of_le h).add_one
  have hresult : x + 1 = ofValue (x.value.add (1 : Single).value) :=
    if_pos (beq_self hsum.ne_notANumber)
  rw [hresult]
  exact one_le_toWord hsum

end Single

end ParticleDynamics
