import ParticleDynamics.Proofs.Single.Parts
import ParticleDynamics.Proofs.Single.Rounding

/-!
# Order and truncation

Truncation to a signed integer respects the order of numbers (`Single.toSigned_mono`), and words
below `2^24` come back from the conversion to a number unchanged (`Single.toSigned_ofWord`). With
both, limiting a value to a range that ends with a word limits its truncation to that word, whatever
bits the value has (`Single.toSigned_clamp`).
-/

namespace ParticleDynamics

namespace Single

open Float.Model (Format UnpackedFloat)
open Float.Model.UnpackedFloat (Sign ExtendedMantissa)

/-! ## The whole part -/

/-- The whole part of a mantissa with an exponent. -/
def whole (mantissa : Nat) (exponent : Int) : Nat :=
  if 0 ≤ exponent then mantissa * 2 ^ exponent.toNat else mantissa / 2 ^ (-exponent).toNat

/-- Shifting an extended mantissa right drops bits of the mantissa. -/
theorem mantissa_shiftRight (em : ExtendedMantissa) (count : Nat) :
    (em >>> count).mantissa = em.mantissa / 2 ^ count := by
  change (Nat.repeat ExtendedMantissa.shiftRightOne count em).mantissa = _
  induction count with
  | zero => simp [Nat.repeat]
  | succ count ih => rw [Nat.repeat, ExtendedMantissa.shiftRightOne, ih, Nat.div_div_eq_div_mul,
      Nat.pow_succ]

/-- The core library truncates to the whole part. -/
theorem roundToInt_eq (sign : Sign) (mantissa : Nat) (exponent : Int) :
    UnpackedFloat.roundToInt sign mantissa exponent = sign.apply (whole mantissa exponent) := by
  unfold UnpackedFloat.roundToInt UnpackedFloat.decreaseExponent UnpackedFloat.shiftToExponent whole
  simp only [mantissa_shiftRight, UnpackedFloat.ExtendedMantissa.ofMantissaAndAccuracy]
  -- a shift to exponent zero goes to the left or to the right, never both ways
  by_cases h : 0 ≤ exponent
  · have hrest : (0 - (exponent - ((exponent - 0).toNat : Int))).toNat = 0 := by omega
    rw [if_pos h, hrest, Int.sub_zero, Nat.shiftLeft_eq, Nat.pow_zero, Nat.div_one]
  · have hnone : (exponent - 0).toNat = 0 := by omega
    rw [if_neg h, hnone, Nat.shiftLeft_zero]
    simp

/-- The whole part does not shrink when the exponent grows, as long as the mantissa is at least half
of what it was. -/
theorem whole_le_of_exponent_lt {mantissa mantissa' : Nat} {exponent exponent' : Int}
    (hdouble : mantissa ≤ mantissa' * 2) (hlt : exponent < exponent') :
    whole mantissa exponent ≤ whole mantissa' exponent' := by
  have hhalf : mantissa / 2 ≤ mantissa' := by omega
  unfold whole
  by_cases hneg' : 0 ≤ exponent'
  · -- the larger exponent is not negative: the other one shifts less, or to the other side
    by_cases hneg : 0 ≤ exponent
    · rw [if_pos hneg, if_pos hneg']
      obtain ⟨gap, hgap⟩ : ∃ gap, exponent'.toNat = gap + 1 + exponent.toNat :=
        ⟨exponent'.toNat - exponent.toNat - 1, by omega⟩
      rw [hgap, Nat.pow_add, ← Nat.mul_assoc]
      apply Nat.mul_le_mul_right
      calc mantissa ≤ mantissa' * 2 := hdouble
        _ ≤ mantissa' * 2 ^ (gap + 1) :=
          Nat.mul_le_mul_left _ (Nat.le_self_pow (Nat.succ_ne_zero gap) 2)
    · rw [if_neg hneg, if_pos hneg']
      obtain ⟨gap, hgap⟩ : ∃ gap, (-exponent).toNat = gap + 1 :=
        ⟨(-exponent).toNat - 1, by omega⟩
      rw [hgap, Nat.pow_succ, Nat.mul_comm, ← Nat.div_div_eq_div_mul]
      calc mantissa / 2 / 2 ^ gap ≤ mantissa / 2 := Nat.div_le_self _ _
        _ ≤ mantissa' := hhalf
        _ ≤ mantissa' * 2 ^ exponent'.toNat := Nat.le_mul_of_pos_right _ (Nat.two_pow_pos _)
  · -- both shift to the right, the smaller one further
    have hneg : ¬ 0 ≤ exponent := by omega
    rw [if_neg hneg, if_neg hneg']
    obtain ⟨gap, hgap⟩ : ∃ gap, (-exponent).toNat = gap + 1 + (-exponent').toNat :=
      ⟨(-exponent).toNat - (-exponent').toNat - 1, by omega⟩
    rw [hgap, Nat.pow_add, ← Nat.div_div_eq_div_mul]
    apply Nat.div_le_div_right
    calc mantissa / 2 ^ (gap + 1) ≤ mantissa / 2 := by
          rw [Nat.pow_succ, Nat.mul_comm, ← Nat.div_div_eq_div_mul]
          exact Nat.div_le_self _ _
      _ ≤ mantissa' := hhalf

/-- The whole part grows with the exponent and then with the mantissa. -/
theorem whole_mono {mantissa mantissa' : Nat} {exponent exponent' : Int}
    (h : Canonical mantissa exponent) (h' : Canonical mantissa' exponent')
    (hle : exponent < exponent' ∨ exponent = exponent' ∧ mantissa ≤ mantissa') :
    whole mantissa exponent ≤ whole mantissa' exponent' := by
  rcases hle with hlt | ⟨rfl, hle⟩
  · -- the larger exponent is not the least one, so its mantissa has the leading bit
    have hge := h.exponent_ge
    have hmantissa := h.mantissa_lt
    have hfull : 2 ^ 23 ≤ mantissa' := h'.full.resolve_left (by omega)
    exact whole_le_of_exponent_lt (by omega) hlt
  · unfold whole
    split
    · exact Nat.mul_le_mul_right _ hle
    · exact Nat.div_le_div_right hle

/-! ## Comparison and truncation by parts -/

theorem lt_iff_parts {x y : Single} : x < y ↔ x.parts.compare y.parts = some .lt := by
  change decide (x.value.toModel.unpack.lt y.value.toModel.unpack = true) = true ↔ _
  simp [UnpackedFloat.lt]

theorem le_iff_parts {x y : Single} :
    x ≤ y ↔ ∃ order, x.parts.compare y.parts = some order ∧ order.isLE = true := by
  change decide (x.value.toModel.unpack.le y.value.toModel.unpack = true) = true ↔ _
  simp [UnpackedFloat.le, Option.any_eq_true]

/-- What truncation to a signed integer makes of parts. -/
def signedPart : UnpackedFloat → Int
  | .notANumber => 0
  | .infinity .positive => 2147483647
  | .infinity .negative => -2147483648
  | .zero _ => 0
  | .finite .positive mantissa exponent _ => Int.ofNat (min (whole mantissa exponent) 2147483647)
  | .finite .negative mantissa exponent _ => -Int.ofNat (min (whole mantissa exponent) 2147483648)

/-- A word that the core library limits a truncation to. -/
theorem toNat_ofNatClamp (n : Nat) : (UInt32.ofNatClamp n).toNat = min n 4294967295 := by
  unfold UInt32.ofNatClamp
  split
  next h =>
    change n < 4294967296 at h
    rw [UInt32.toNat_ofNatLT]
    omega
  next h =>
    change ¬ n < 4294967296 at h
    rw [UInt32.toNat_ofNatLT, min_eq_right (by omega)]
    rfl

/-- Truncation to a word looks at the parts alone. -/
theorem toNat_toWord (x : Single) :
    x.toWord.toNat = min (x.parts.toInt 0 4294967295).toNat 4294967295 := by
  rw [← unpack_value]
  exact toNat_ofNatClamp _

/-- Truncation to a signed integer looks at the parts alone. -/
theorem toSigned_eq (x : Single) : x.toSigned = signedPart x.parts := by
  have hneg : (-x.value).toModel.unpack = x.parts.neg := by
    change UnpackedFloat.unpack _ (UnpackedFloat.pack _ x.value.toModel.unpack.neg) = _
    rw [unpack_value]
    refine unpack_pack fun sign mantissa exponent hpos h => ?_
    cases hx : x.parts <;> rw [hx] at h <;> cases h
    exact canonical_of_parts hx
  have hword (y : Float32) :
      y.toUInt32.toNat = min (y.toModel.unpack.toInt 0 4294967295).toNat 4294967295 :=
    toNat_ofNatClamp _
  have hzero : (x.value < 0) ↔ x.parts.compare (.zero .positive) = some .lt := by
    change decide (x.value.toModel.unpack.lt (.zero .positive) = true) = true ↔ _
    simp [UnpackedFloat.lt]
  unfold toSigned
  simp only [hzero, hword, hneg, unpack_value]
  rcases x.parts with (_ | _) | _ | (_ | _) | ⟨_ | _, mantissa, exponent, hpos⟩ <;>
    simp [UnpackedFloat.compare, UnpackedFloat.toInt, UnpackedFloat.neg, signedPart, roundToInt_eq,
      Sign.apply, show -Sign.negative = Sign.positive from rfl]

/-- Exponents are compared first, mantissas between equal exponents. -/
theorem isLE_compare_then {exponent exponent' : Int} {mantissa mantissa' : Nat} :
    ((compare exponent exponent').then (compare mantissa mantissa')).isLE = true ↔
      exponent < exponent' ∨ exponent = exponent' ∧ mantissa ≤ mantissa' := by
  rcases Int.lt_trichotomy exponent exponent' with hlt | rfl | hgt
  · simp [Int.compare_eq_lt.2 hlt, hlt]
  · simp [Nat.isLE_compare]
  · simp [Int.compare_eq_gt.2 hgt]
    omega

/-- **Truncation respects the order of numbers.** Beyond the range of a word all numbers are taken
to its ends, which respects the order, too. -/
theorem toSigned_mono {x y : Single} (h : x ≤ y) : x.toSigned ≤ y.toSigned := by
  obtain ⟨order, hcompare, hle⟩ := le_iff_parts.1 h
  rw [toSigned_eq, toSigned_eq]
  rcases hx : x.parts with (_ | _) | _ | (_ | _) | ⟨_ | _, mantissa, exponent, hpos⟩ <;>
    rcases hy : y.parts with (_ | _) | _ | (_ | _) | ⟨_ | _, mantissa', exponent', hpos'⟩ <;>
    simp only [hx, hy, UnpackedFloat.compare, Option.some.injEq, reduceCtorEq] at hcompare <;>
    subst hcompare <;> simp only [signedPart, Int.ofNat_eq_natCast]
  -- two numbers of one sign compare by their parts; all other pairs are settled by their kinds
  case finite.negative.finite.negative =>
    have hgrow : whole mantissa' exponent' ≤ whole mantissa exponent := by
      refine whole_mono (canonical_of_parts hy) (canonical_of_parts hx) (isLE_compare_then.1 ?_)
      rwa [Ordering.swap_then, Int.compare_swap, Nat.compare_swap] at hle
    omega
  case finite.positive.finite.positive =>
    have hgrow : whole mantissa exponent ≤ whole mantissa' exponent' :=
      whole_mono (canonical_of_parts hx) (canonical_of_parts hy) (isLE_compare_then.1 hle)
    omega
  all_goals first | omega | exact absurd hle (by decide)

/-- Comparing in the other order gives the opposite. -/
theorem compare_swap (x y : UnpackedFloat) : y.compare x = (x.compare y).map Ordering.swap := by
  rcases x with (_ | _) | _ | (_ | _) | ⟨_ | _, mantissa, exponent, hpos⟩ <;>
    rcases y with (_ | _) | _ | (_ | _) | ⟨_ | _, mantissa', exponent', hpos'⟩ <;>
    simp [UnpackedFloat.compare, Ordering.swap_then, Int.compare_swap, Nat.compare_swap] <;> rfl

/-- Whatever is a number equals itself. -/
theorem beq_self {x : UnpackedFloat} (h : x ≠ .notANumber) : x.beq x = true := by
  rcases x with (_ | _) | _ | (_ | _) | ⟨_ | _, mantissa, exponent, hpos⟩ <;>
    first | exact absurd rfl h | rfl | simp [UnpackedFloat.beq, UnpackedFloat.compare]

/-- Of two numbers at most one is smaller. -/
theorem lt_asymm {x y : Single} (h : x < y) : ¬ y < x := by
  rw [lt_iff_parts, compare_swap, lt_iff_parts.1 h]
  exact nofun

/-- A smaller number is at most the other one. -/
theorem le_of_lt {x y : Single} (h : x < y) : x ≤ y :=
  le_iff_parts.2 ⟨.lt, lt_iff_parts.1 h, rfl⟩

/-- A smaller number is another number. -/
theorem bne_of_lt {x y : Single} (h : x < y) : (x != y) = true := by
  change (!x.value.toModel.unpack.beq y.value.toModel.unpack) = true
  rw [unpack_value, unpack_value, UnpackedFloat.beq, lt_iff_parts.1 h]
  rfl

/-- Only a value that is not a number is incomparable. -/
theorem notANumber_of_compare_eq_none {x y : UnpackedFloat} (h : x.compare y = none) :
    x = .notANumber ∨ y = .notANumber := by
  rcases x with (_ | _) | _ | (_ | _) | ⟨_ | _, mantissa, exponent, hpos⟩ <;>
    rcases y with (_ | _) | _ | (_ | _) | ⟨_ | _, mantissa', exponent', hpos'⟩ <;>
    first | exact .inl rfl | exact .inr rfl | cases h

/-- What a number is not below is at most that number in truncation, or is not a number itself. -/
theorem toSigned_le_of_not_lt {x y : Single} (hy : y.parts ≠ .notANumber) (hzero : 0 ≤ y.toSigned)
    (h : ¬ y < x) : x.toSigned ≤ y.toSigned := by
  cases hcompare : y.parts.compare x.parts with
  | none =>
    obtain hx := (notANumber_of_compare_eq_none hcompare).resolve_left hy
    rw [toSigned_eq x, hx]
    exact hzero
  | some order =>
    refine toSigned_mono (le_iff_parts.2 ⟨order.swap, ?_, ?_⟩)
    · rw [compare_swap, hcompare]
      rfl
    · cases order with
      | lt => exact absurd (lt_iff_parts.2 hcompare) h
      | eq => rfl
      | gt => rfl

/-! ## Words -/

/-- A positive word of at most 24 bits is a number with exactly these bits. -/
theorem parts_ofWord {n : UInt32} (hpos : 0 < n.toNat) (hlt : n.toNat < 2 ^ 24) :
    ∃ hmantissa, (ofWord n).parts =
      .finite .positive (n.toNat <<< (23 - n.toNat.log2)) (n.toNat.log2 - 23) hmantissa := by
  have hlog : n.toNat.log2 < 24 := (Nat.log2_lt (Nat.ne_of_gt hpos)).2 hlt
  obtain ⟨hfull, hleading⟩ := leading_of_lt hpos hlt
  obtain ⟨hmantissa, hround⟩ := ofNat_eq hpos hfull hleading
  refine ⟨hmantissa, ?_⟩
  change (ofValue (.ofModel (.pack (UnpackedFloat.ofUInt32 Format.binary32 n)))).parts = _
  rw [UnpackedFloat.ofUInt32, hround]
  refine parts_ofValue_pack fun _ _ _ _ h => ?_
  cases h
  have hlead := (Nat.log2_eq_iff (Nat.ne_of_gt hmantissa)).1 hfull
  exact ⟨hlead.2, by omega, by omega, .inr hlead.1⟩

/-- **A small word comes back from its conversion to a number.** -/
theorem toSigned_ofWord {n : UInt32} (hlt : n.toNat < 2 ^ 24) : (ofWord n).toSigned = n.toNat := by
  rcases Nat.eq_zero_or_pos n.toNat with hzero | hpos
  · obtain rfl : n = 0 := UInt32.toNat_inj.1 hzero
    rfl
  · have hlog : n.toNat.log2 < 24 := (Nat.log2_lt (Nat.ne_of_gt hpos)).2 hlt
    obtain ⟨hmantissa, hparts⟩ := parts_ofWord hpos hlt
    have hback : (-((n.toNat.log2 : Int) - 23)).toNat = 23 - n.toNat.log2 := by omega
    have hwhole : whole (n.toNat <<< (23 - n.toNat.log2)) (n.toNat.log2 - 23) = n.toNat := by
      rw [whole, hback, Nat.shiftLeft_eq, Nat.mul_div_cancel _ (Nat.two_pow_pos _)]
      split
      next hfull =>
        obtain ⟨hdone, hdone'⟩ : 23 - n.toNat.log2 = 0 ∧ ((n.toNat.log2 : Int) - 23).toNat = 0 := by
          omega
        rw [hdone, hdone', Nat.pow_zero, Nat.mul_one, Nat.mul_one]
      next => rfl
    rw [toSigned_eq, hparts, signedPart, hwhole]
    simp only [Int.ofNat_eq_natCast]
    omega

/-- A small word is a number. -/
theorem parts_ofWord_ne_notANumber {n : UInt32} (hlt : n.toNat < 2 ^ 24) :
    (ofWord n).parts ≠ .notANumber := by
  rcases Nat.eq_zero_or_pos n.toNat with hzero | hpos
  · obtain rfl : n = 0 := UInt32.toNat_inj.1 hzero
    exact nofun
  · obtain ⟨hmantissa, hparts⟩ := parts_ofWord hpos hlt
    rw [hparts]
    exact nofun

/-- No small word lies below zero. -/
theorem zero_le_ofWord {n : UInt32} (hlt : n.toNat < 2 ^ 24) : (0 : Single) ≤ ofWord n := by
  rcases Nat.eq_zero_or_pos n.toNat with hzero | hpos
  · obtain rfl : n = 0 := UInt32.toNat_inj.1 hzero
    decide
  · obtain ⟨hmantissa, hparts⟩ := parts_ofWord hpos hlt
    refine le_iff_parts.2 ⟨.lt, ?_, rfl⟩
    rw [hparts]
    rfl

/-- **Limiting to a range of words limits the truncation.** It never breaks, whatever the value is,
and a value that is not a number comes out as zero. -/
theorem toSigned_clamp (x : Single) {n : UInt32} (hlt : n.toNat < 2 ^ 24) :
    ∃ limited, Scalar.clamp x 0 (Scalar.ofWord n) = .ok limited ∧ limited.toSigned ≤ n.toNat := by
  have hword : (ofWord n).toSigned = n.toNat := toSigned_ofWord hlt
  have hlimited (raised : Single) :
      (if ofWord n < raised then ofWord n else raised).toSigned ≤ n.toNat := by
    split
    next => exact Int.le_of_eq hword
    next habove =>
      rw [← hword]
      exact toSigned_le_of_not_lt (parts_ofWord_ne_notANumber hlt) (by omega) habove
  exact ⟨_, if_pos (zero_le_ofWord hlt), hlimited _⟩

end Single

end ParticleDynamics
