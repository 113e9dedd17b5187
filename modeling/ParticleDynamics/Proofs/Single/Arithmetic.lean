import ParticleDynamics.Proofs.Single.Rounded

/-!
# Arithmetic on finite numbers

The parts of a result are the rounded ones of the core library, also where the operation has no
result (`Single.parts_add` and its siblings). On finite numbers the sum, the difference, the
product and the quotient by a number other than zero stand for the exact result up to rounding
(`Single.rounds_add`, `Single.rounds_sub`, `Single.rounds_mul`, `Single.rounds_div`).
-/

namespace ParticleDynamics

namespace Single

open Float.Model (Format UnpackedFloat totalExponent)
open Float.Model.UnpackedFloat (Sign)

/-! ## The parts of a result -/

theorem parts_of_isNumber_eq_false {x : Single} (h : x.isNumber = false) :
    x.parts = .notANumber := by
  by_contra hnumber
  have hself : x.value.toModel.unpack.beq x.value.toModel.unpack = true := by
    rw [unpack_value]
    exact beq_self hnumber
  exact absurd (h.symm.trans hself) Bool.false_ne_true

theorem parts_failure (x : Single) : (failure x).parts = .notANumber := by
  rw [failure]
  split
  next => rfl
  next hnone => exact parts_quieted (parts_of_isNumber_eq_false (Bool.eq_false_iff.2 hnone))

theorem parts_failureOfTwo (x y : Single) : (failureOfTwo x y).parts = .notANumber := by
  rw [failureOfTwo]
  split
  next => exact parts_failure y
  next hnone => exact parts_quieted (parts_of_isNumber_eq_false (Bool.eq_false_iff.2 hnone))

/-- **The parts of a result** of one value. -/
theorem parts_lift_eq {operation : Float32 → Float32} {model : UnpackedFloat → UnpackedFloat}
    (hmodel : ∀ a : Float32, (operation a).toModel = .pack (model a.toModel.unpack)) (x : Single) :
    (lift operation x).parts = UnpackedFloat.unpack Format.binary32
      (UnpackedFloat.pack Format.binary32 (model x.parts)) := by
  have hresult : (operation x.value).toModel.unpack = UnpackedFloat.unpack Format.binary32
      (UnpackedFloat.pack Format.binary32 (model x.parts)) := by
    rw [hmodel, unpack_value]
    rfl
  rw [← hresult, lift]
  split
  next => rfl
  next hnone =>
    rw [parts_failure]
    by_contra hnumber
    exact hnone (beq_self fun heq => hnumber heq.symm)

/-- **The parts of a result** of two values. -/
theorem parts_liftTwo_eq {operation : Float32 → Float32 → Float32}
    {model : UnpackedFloat → UnpackedFloat → UnpackedFloat}
    (hmodel : ∀ a b : Float32,
      (operation a b).toModel = .pack (model a.toModel.unpack b.toModel.unpack)) (x y : Single) :
    (liftTwo operation x y).parts = UnpackedFloat.unpack Format.binary32
      (UnpackedFloat.pack Format.binary32 (model x.parts y.parts)) := by
  have hresult : (operation x.value y.value).toModel.unpack = UnpackedFloat.unpack Format.binary32
      (UnpackedFloat.pack Format.binary32 (model x.parts y.parts)) := by
    rw [hmodel, unpack_value, unpack_value]
    rfl
  rw [← hresult, liftTwo]
  split
  next => rfl
  next hnone =>
    rw [parts_failureOfTwo]
    by_contra hnumber
    exact hnone (beq_self fun heq => hnumber heq.symm)

theorem parts_add (x y : Single) : (x + y).parts = UnpackedFloat.unpack Format.binary32
    (UnpackedFloat.pack Format.binary32 (UnpackedFloat.add Format.binary32 x.parts y.parts)) :=
  parts_liftTwo_eq (fun _ _ => rfl) x y

theorem parts_sub (x y : Single) : (x - y).parts = UnpackedFloat.unpack Format.binary32
    (UnpackedFloat.pack Format.binary32 (UnpackedFloat.sub Format.binary32 x.parts y.parts)) :=
  parts_liftTwo_eq (fun _ _ => rfl) x y

theorem parts_mul (x y : Single) : (x * y).parts = UnpackedFloat.unpack Format.binary32
    (UnpackedFloat.pack Format.binary32 (UnpackedFloat.mul Format.binary32 x.parts y.parts)) :=
  parts_liftTwo_eq (fun _ _ => rfl) x y

theorem parts_div (x y : Single) : (x / y).parts = UnpackedFloat.unpack Format.binary32
    (UnpackedFloat.pack Format.binary32 (UnpackedFloat.div Format.binary32 x.parts y.parts)) :=
  parts_liftTwo_eq (fun _ _ => rfl) x y

theorem parts_sqrt (x : Single) : (Scalar.sqrt x).parts = UnpackedFloat.unpack Format.binary32
    (UnpackedFloat.pack Format.binary32 (UnpackedFloat.sqrt Format.binary32 x.parts)) :=
  parts_lift_eq (fun _ => rfl) x

/-- An infinity survives being packed. -/
theorem unpack_pack_infinity (sign : Sign) :
    UnpackedFloat.unpack Format.binary32 (UnpackedFloat.pack Format.binary32 (.infinity sign)) =
      .infinity sign :=
  unpack_pack nofun

/-- What is no number survives being packed. -/
theorem unpack_pack_notANumber :
    UnpackedFloat.unpack Format.binary32 (UnpackedFloat.pack Format.binary32 .notANumber) =
      .notANumber :=
  unpack_pack nofun

/-- The parts of a number survive being packed once more. -/
theorem unpack_pack_parts (x : Single) :
    UnpackedFloat.unpack Format.binary32 (UnpackedFloat.pack Format.binary32 x.parts) = x.parts :=
  unpack_pack fun _ _ _ _ h => canonical_of_parts h

/-! ## Sums and differences -/

/-- A finite number with exactly the value. -/
theorem rounds_of_eq {x : Single} {value : ℚ} (hx : x.isFinite = true) (h : x.toRat = value) :
    Rounds value x :=
  h ▸ rounds_self hx

/-- A number with the parts of another one. -/
theorem rounds_of_parts_eq {x y : Single} (hy : y.isFinite = true) (h : x.parts = y.parts) :
    Rounds y.toRat x :=
  rounds_of_eq ((isFinite_congr h).trans hy) (toRat_congr h)

theorem rounds_zero {x : Single} {sign : Sign}
    (h : x.parts = UnpackedFloat.unpack Format.binary32
      (UnpackedFloat.pack Format.binary32 (.zero sign))) : Rounds 0 x := by
  rw [unpack_pack (x := .zero sign) nofun] at h
  exact rounds_of_eq (isFinite_of_zero h) (toRat_of_zero h)

/-- Rounding a mantissa of any length. -/
theorem rounds_of_round_exact {sign : Sign} {mantissa : Nat} {exponent : Int} (hpos : 0 < mantissa)
    {x : Single}
    (hx : x.parts = UnpackedFloat.unpack Format.binary32 (UnpackedFloat.pack Format.binary32
      (UnpackedFloat.round Format.binary32 sign mantissa exponent))) :
    Rounds (factor sign * scaled mantissa exponent) x := by
  have hbits : Format.binary32.mantissaBits = 24 := rfl
  have hleast : Format.binary32.minExponent = -149 := rfl
  obtain ⟨count, hcount⟩ : ∃ count : Nat, (exponent - Format.binary32.targetExponent
      (totalExponent mantissa exponent)).toNat = count := ⟨_, rfl⟩
  have htarget : exponent - count = min exponent (max (mantissa.log2 + exponent - 23) (-149)) := by
    simp only [← hcount, Format.targetExponent, totalExponent, hbits, hleast]
    omega
  have hlog := log2_shiftLeft hpos count
  have hlong : exponent - count ≤ -149 ∨ 23 ≤ (mantissa <<< count).log2 := by omega
  simp only [UnpackedFloat.round, UnpackedFloat.decreaseExponent, hcount] at hx
  have hrounds := rounds_of_round (cut_exact (mantissa <<< count)) hlong hx
  rwa [Nat.shiftLeft_eq, ← scaled, scaled_shift] at hrounds

/-- Rounding a mantissa with a sign. -/
theorem rounds_of_normalize {mantissa exponent : Int} {zeroSign : Sign} {x : Single}
    (hx : x.parts = UnpackedFloat.unpack Format.binary32 (UnpackedFloat.pack Format.binary32
      (UnpackedFloat.normalize Format.binary32 mantissa exponent zeroSign))) :
    Rounds (mantissa * 2 ^ exponent) x := by
  rcases Int.lt_trichotomy mantissa 0 with hneg | rfl | hpos
  · have hcast : ((-mantissa).toNat : ℚ) = -mantissa := by
      exact_mod_cast Int.toNat_of_nonneg (show 0 ≤ -mantissa by omega)
    simp only [UnpackedFloat.normalize, Int.compare_eq_lt.2 hneg] at hx
    have hrounds := rounds_of_round_exact (by omega) hx
    rwa [factor, scaled, hcast, neg_mul (mantissa : ℚ), neg_mul_neg, one_mul] at hrounds
  · rw [Int.cast_zero, zero_mul]
    exact rounds_zero hx
  · have hcast : (mantissa.toNat : ℚ) = mantissa := by
      exact_mod_cast Int.toNat_of_nonneg hpos.le
    simp only [UnpackedFloat.normalize, Int.compare_eq_gt.2 hpos] at hx
    have hrounds := rounds_of_round_exact (by omega) hx
    rwa [factor, scaled, hcast, one_mul] at hrounds

/-- Mantissas are moved to a common exponent. -/
theorem factor_mul_scaled (sign : Sign) (mantissa : Nat) {exponent exponent' : Int}
    (hle : exponent' ≤ exponent) :
    factor sign * scaled mantissa exponent =
      (sign.apply (UnpackedFloat.decreaseExponent mantissa exponent exponent').1 : ℚ) *
        2 ^ exponent' := by
  have hgap : exponent - ((exponent - exponent').toNat : Int) = exponent' := by omega
  rw [← scaled_shift mantissa (exponent - exponent').toNat exponent, hgap, scaled,
    ← Nat.shiftLeft_eq, ← mul_assoc]
  cases sign <;>
    simp only [factor, Sign.apply, UnpackedFloat.decreaseExponent, Int.cast_neg, Int.cast_natCast,
      neg_mul, one_mul]

/-- **A sum of finite numbers stands for the exact sum**, up to rounding. The exact sum of two
mantissas is an integer at the smaller exponent, so the only rounding is that of the result. -/
theorem rounds_add {x y : Single} (hx : x.isFinite = true) (hy : y.isFinite = true) :
    Rounds (x.toRat + y.toRat) (x + y) := by
  have hparts := parts_add x y
  rcases parts_of_isFinite hx with ⟨sign, hx'⟩ | ⟨sign, mantissa, exponent, hpos, hx'⟩ <;>
    rcases parts_of_isFinite hy with ⟨sign', hy'⟩ | ⟨sign', mantissa', exponent', hpos', hy'⟩ <;>
    simp only [hx', hy', UnpackedFloat.add] at hparts
  case inl.inl =>
    rw [toRat_of_zero hx', toRat_of_zero hy', add_zero]
    split at hparts <;> exact rounds_zero hparts
  case inl.inr =>
    rw [← hy', unpack_pack_parts] at hparts
    rw [toRat_of_zero hx', zero_add]
    exact rounds_of_parts_eq hy hparts
  case inr.inl =>
    rw [← hx', unpack_pack_parts] at hparts
    rw [toRat_of_zero hy', add_zero]
    exact rounds_of_parts_eq hx hparts
  case inr.inr =>
    rw [toRat_of_finite hx', toRat_of_finite hy',
      factor_mul_scaled _ _ (min_le_left exponent exponent'),
      factor_mul_scaled _ _ (min_le_right exponent exponent'), ← add_mul, ← Int.cast_add]
    exact rounds_of_normalize hparts

theorem factor_neg (sign : Sign) : factor (-sign) = -factor sign := by
  cases sign <;> norm_num [factor]

/-- **A difference of finite numbers stands for the exact difference**, up to rounding. -/
theorem rounds_sub {x y : Single} (hx : x.isFinite = true) (hy : y.isFinite = true) :
    Rounds (x.toRat - y.toRat) (x - y) := by
  have hparts := parts_sub x y
  rcases parts_of_isFinite hx with ⟨sign, hx'⟩ | ⟨sign, mantissa, exponent, hpos, hx'⟩ <;>
    rcases parts_of_isFinite hy with ⟨sign', hy'⟩ | ⟨sign', mantissa', exponent', hpos', hy'⟩ <;>
    simp only [hx', hy', UnpackedFloat.sub] at hparts
  case inl.inl =>
    rw [toRat_of_zero hx', toRat_of_zero hy', sub_zero]
    split at hparts <;> exact rounds_zero hparts
  case inl.inr =>
    rw [unpack_pack_finite hpos' (canonical_of_parts hy')] at hparts
    refine rounds_of_eq (isFinite_of_finite hparts) ?_
    rw [toRat_of_finite hparts, toRat_of_zero hx', toRat_of_finite hy', zero_sub, factor_neg,
      neg_mul]
  case inr.inl =>
    rw [← hx', unpack_pack_parts] at hparts
    rw [toRat_of_zero hy', sub_zero]
    exact rounds_of_parts_eq hx hparts
  case inr.inr =>
    rw [toRat_of_finite hx', toRat_of_finite hy',
      factor_mul_scaled _ _ (min_le_left exponent exponent'),
      factor_mul_scaled _ _ (min_le_right exponent exponent'), ← sub_mul, ← Int.cast_sub]
    exact rounds_of_normalize hparts

/-! ## Products and quotients -/

theorem factor_mul (sign sign' : Sign) : factor (sign * sign') = factor sign * factor sign' := by
  cases sign <;> cases sign' <;> norm_num [factor]

theorem factor_div (sign sign' : Sign) : factor (sign / sign') = factor sign / factor sign' := by
  cases sign <;> cases sign' <;> norm_num [factor] <;> rfl

/-- A quotient is taken of so many bits that 24 of it are left, unless the least exponent comes
first. -/
theorem exists_divCore {mantissa mantissa' : Nat} (hlt : mantissa < 2 ^ 24) (hpos : 0 < mantissa)
    (hpos' : 0 < mantissa') (exponent exponent' : Int) :
    ∃ count : Nat,
      (exponent - exponent' - count ≤ -149 ∨ 23 ≤ (mantissa <<< count / mantissa').log2) ∧
      UnpackedFloat.divCore Format.binary32 mantissa exponent mantissa' exponent' =
        (mantissa <<< count / mantissa', exponent - exponent' - count,
          UnpackedFloat.accuracyOfFraction (mantissa <<< count % mantissa') mantissa') := by
  have hbits : Format.binary32.mantissaBits = 24 := rfl
  have hleast : Format.binary32.minExponent = -149 := rfl
  have hlog : mantissa.log2 < 24 := (Nat.log2_lt hpos.ne').2 hlt
  obtain ⟨target, htarget⟩ : ∃ target, min (exponent - exponent')
      (Format.binary32.targetExponent
        (totalExponent mantissa exponent - totalExponent mantissa' exponent')) = target := ⟨_, rfl⟩
  obtain ⟨count, hcount⟩ : ∃ count : Nat, (exponent - exponent' - target).toNat = count := ⟨_, rfl⟩
  have hvalue : target = min (exponent - exponent')
      (max (mantissa.log2 + exponent - (mantissa'.log2 + exponent') - 24) (-149)) := by
    rw [← htarget]
    simp only [Format.targetExponent, totalExponent, hbits, hleast]
    omega
  have hshift : exponent - exponent' - count = target := by omega
  refine ⟨count, or_iff_not_imp_left.2 fun hgreater => ?_, ?_⟩
  · -- the leading bits are as far apart as a full mantissa and the divisor need
    have hbelow : 2 ^ 23 * mantissa' ≤ mantissa * 2 ^ count :=
      calc 2 ^ 23 * mantissa' ≤ 2 ^ 23 * 2 ^ (mantissa'.log2 + 1) :=
            Nat.mul_le_mul_left _ Nat.lt_log2_self.le
        _ = 2 ^ mantissa.log2 * 2 ^ count := by
            rw [← Nat.pow_add, ← Nat.pow_add]
            congr 1
            omega
        _ ≤ mantissa * 2 ^ count := Nat.mul_le_mul_right _ (Nat.log2_self_le hpos.ne')
    have hquotient : 2 ^ 23 ≤ mantissa <<< count / mantissa' := by
      rwa [Nat.le_div_iff_mul_le hpos', Nat.shiftLeft_eq]
    exact (Nat.le_log2 (by omega)).2 hquotient
  · simp only [UnpackedFloat.divCore, htarget, hcount, hshift]

/-- **A product of finite numbers stands for the exact product**, up to rounding. -/
theorem rounds_mul {x y : Single} (hx : x.isFinite = true) (hy : y.isFinite = true) :
    Rounds (x.toRat * y.toRat) (x * y) := by
  have hparts := parts_mul x y
  rcases parts_of_isFinite hx with ⟨sign, hx'⟩ | ⟨sign, mantissa, exponent, hpos, hx'⟩ <;>
    rcases parts_of_isFinite hy with ⟨sign', hy'⟩ | ⟨sign', mantissa', exponent', hpos', hy'⟩ <;>
    simp only [hx', hy', UnpackedFloat.mul] at hparts
  -- neither is zero: the product of the mantissas is exact and long enough to be rounded
  case inr.inr =>
    have hcanonical := canonical_of_parts hx'
    have hcanonical' := canonical_of_parts hy'
    have hlong : exponent + exponent' ≤ -149 ∨ 23 ≤ (mantissa * mantissa').log2 := by
      rw [Nat.le_log2 (Nat.mul_pos hpos hpos').ne']
      rcases hcanonical.full with hleast | hlead
      · rcases hcanonical'.full with hleast' | hlead'
        · exact .inl (by omega)
        · exact .inr (hlead'.trans (Nat.le_mul_of_pos_left _ hpos))
      · exact .inr (hlead.trans (Nat.le_mul_of_pos_right _ hpos'))
    have hrounds := rounds_of_round (cut_exact _) hlong hparts
    have hvalue : x.toRat * y.toRat = factor (sign * sign') *
        (((mantissa * mantissa' : ℕ) : ℚ) * 2 ^ (exponent + exponent')) := by
      rw [toRat_of_finite hx', toRat_of_finite hy', factor_mul, scaled, scaled, Nat.cast_mul,
        zpow_add₀ two_ne_zero]
      ring
    rwa [hvalue]
  all_goals
    first | rw [toRat_of_zero hx', zero_mul] | rw [toRat_of_zero hy', mul_zero]
    exact rounds_zero hparts

/-- **A quotient of finite numbers stands for the exact quotient**, up to rounding, unless the
divisor is zero. The remainder of the division goes into the accuracy of the cut, so nothing is lost
before rounding. -/
theorem rounds_div {x y : Single} (hx : x.isFinite = true) (hy : y.isFinite = true)
    (hne : y.toRat ≠ 0) : Rounds (x.toRat / y.toRat) (x / y) := by
  have hparts := parts_div x y
  obtain ⟨sign', hy'⟩ | ⟨sign', mantissa', exponent', hpos', hy'⟩ := parts_of_isFinite hy
  · exact absurd (toRat_of_zero hy') hne
  rcases parts_of_isFinite hx with ⟨sign, hx'⟩ | ⟨sign, mantissa, exponent, hpos, hx'⟩
  · rw [toRat_of_zero hx', zero_div]
    simp only [hx', hy', UnpackedFloat.div] at hparts
    exact rounds_zero hparts
  · obtain ⟨count, hlong, hcore⟩ := exists_divCore (canonical_of_parts hx').mantissa_lt hpos hpos'
      exponent exponent'
    simp only [hx', hy', UnpackedFloat.div, hcore] at hparts
    have hrounds := rounds_of_round (cut_div _ hpos') hlong hparts
    have hvalue : x.toRat / y.toRat = factor (sign / sign') *
        (((mantissa <<< count : ℕ) : ℚ) / mantissa' * 2 ^ (exponent - exponent' - count)) := by
      have hdivisor : (mantissa' : ℚ) ≠ 0 := Nat.cast_ne_zero.2 hpos'.ne'
      rw [toRat_of_finite hx', toRat_of_finite hy', factor_div, scaled, scaled, Nat.shiftLeft_eq,
        Nat.cast_mul, Nat.cast_pow, Nat.cast_ofNat, zpow_sub₀ two_ne_zero, zpow_sub₀ two_ne_zero,
        zpow_natCast]
      have hsign : factor sign' ≠ 0 := by cases sign' <;> simp [factor]
      field_simp
    rwa [hvalue]

/-! ## Bounds -/

theorem isFinite_zero : (0 : Single).isFinite = true := rfl

theorem toRat_zero : (0 : Single).toRat = 0 :=
  toRat_of_zero (show (0 : Single).parts = .zero .positive from rfl)

theorem isFinite_one : (1 : Single).isFinite = true := rfl

theorem toRat_one : (1 : Single).toRat = 1 := by
  rw [toRat_of_finite parts_one, factor, scaled]
  norm_num

/-- A result of zero is not rounded. -/
theorem Rounds.eq_zero {x : Single} (h : Rounds 0 x) : x.isFinite = true ∧ x.toRat = 0 := by
  rw [← toRat_zero] at h ⊢
  exact h.eq isFinite_zero

/-! ### Operations with a zero -/

section Zero

variable {x y : Single} (hx : x.isFinite = true) (hy : y.isFinite = true)

include hx hy

theorem mul_of_left_zero (hzero : x.toRat = 0) :
    (x * y).isFinite = true ∧ (x * y).toRat = 0 := by
  have hrounds := rounds_mul hx hy
  rw [hzero, zero_mul] at hrounds
  exact hrounds.eq_zero

theorem mul_of_right_zero (hzero : y.toRat = 0) :
    (x * y).isFinite = true ∧ (x * y).toRat = 0 := by
  have hrounds := rounds_mul hx hy
  rw [hzero, mul_zero] at hrounds
  exact hrounds.eq_zero

theorem add_of_left_zero (hzero : x.toRat = 0) :
    (x + y).isFinite = true ∧ (x + y).toRat = y.toRat := by
  have hrounds := rounds_add hx hy
  rw [hzero, zero_add] at hrounds
  exact hrounds.eq hy

theorem add_of_right_zero (hzero : y.toRat = 0) :
    (x + y).isFinite = true ∧ (x + y).toRat = x.toRat := by
  have hrounds := rounds_add hx hy
  rw [hzero, add_zero] at hrounds
  exact hrounds.eq hx

theorem sub_of_right_zero (hzero : y.toRat = 0) :
    (x - y).isFinite = true ∧ (x - y).toRat = x.toRat := by
  have hrounds := rounds_sub hx hy
  rw [hzero, sub_zero] at hrounds
  exact hrounds.eq hx

end Zero

/-! ### Between zero and a number -/

/-- Finite numbers have an opposite. -/
theorem exists_opposite {x : Single} (hx : x.isFinite = true) :
    ∃ y : Single, y.isFinite = true ∧ y.toRat = -x.toRat := by
  rcases parts_of_isFinite hx with ⟨sign, hx'⟩ | ⟨sign, mantissa, exponent, hpos, hx'⟩
  · exact ⟨x, hx, by rw [toRat_of_zero hx', neg_zero]⟩
  · have hparts : (ofValue (.ofModel (.pack (.finite (-sign) mantissa exponent hpos)))).parts =
        .finite (-sign) mantissa exponent hpos := by
      refine parts_ofValue_pack fun _ _ _ _ h => ?_
      cases h
      exact canonical_of_parts hx'
    refine ⟨_, isFinite_of_finite hparts, ?_⟩
    rw [toRat_of_finite hparts, toRat_of_finite hx', factor_neg, neg_mul]

/-- **A result between zero and a finite number stays between them.** -/
theorem Rounds.mem_uIcc {value : ℚ} {x y : Single} (h : Rounds value x) (hy : y.isFinite = true)
    (hmem : value ∈ Set.uIcc 0 y.toRat) : x.isFinite = true ∧ x.toRat ∈ Set.uIcc 0 y.toRat := by
  rw [Set.mem_uIcc] at hmem ⊢
  rcases hmem with ⟨hle, hle'⟩ | ⟨hle, hle'⟩
  · obtain ⟨hx, hmem⟩ := h.mem isFinite_zero hy (toRat_zero.symm ▸ hle) hle'
    exact ⟨hx, .inl (toRat_zero ▸ hmem)⟩
  · obtain ⟨hx, hmem⟩ := h.mem hy isFinite_zero hle (toRat_zero.symm ▸ hle')
    exact ⟨hx, .inr (toRat_zero ▸ hmem)⟩

/-! ## Results that are not below zero -/

/-- What is not below zero is a finite number that is none below zero, or the greatest infinity. -/
theorem zero_le_iff {x : Single} :
    0 ≤ x ↔ x.parts = .infinity .positive ∨ x.isFinite = true ∧ 0 ≤ x.toRat := by
  constructor
  · intro h
    obtain ⟨order, hcompare, hle⟩ := le_iff_parts.1 h
    have hnumber := (ne_notANumber_of_compare hcompare).2
    have hfinite (hx : x.isFinite = true) : x.isFinite = true ∧ 0 ≤ x.toRat :=
      ⟨hx, toRat_zero ▸ (le_iff_toRat isFinite_zero hx).1 h⟩
    rcases hx : x.parts with (_ | _) | _ | sign | ⟨sign, mantissa, exponent, hpos⟩
    · exact absurd h (not_le_infinity isFinite_zero hx)
    · exact .inl rfl
    · exact absurd hx hnumber
    · exact .inr (hfinite (isFinite_of_zero hx))
    · exact .inr (hfinite (isFinite_of_finite hx))
  · rintro (hx | ⟨hx, hnonneg⟩)
    · exact le_infinity isFinite_zero hx
    · exact (le_iff_toRat isFinite_zero hx).2 (toRat_zero.symm ▸ hnonneg)

/-- The parts of what is not below zero. -/
theorem parts_of_zero_le {x : Single} (h : 0 ≤ x) :
    x.parts = .infinity .positive ∨ (∃ sign, x.parts = .zero sign) ∨
      ∃ mantissa exponent hpos, x.parts = .finite .positive mantissa exponent hpos := by
  rcases zero_le_iff.1 h with hx | ⟨hx, hnonneg⟩
  · exact .inl hx
  · rcases parts_of_isFinite hx with ⟨sign, hx'⟩ | ⟨sign, mantissa, exponent, hpos, hx'⟩
    · exact .inr (.inl ⟨sign, hx'⟩)
    · have hscaled := scaled_pos hpos exponent
      cases sign with
      | positive => exact .inr (.inr ⟨mantissa, exponent, hpos, hx'⟩)
      | negative =>
        rw [toRat_of_finite hx', factor, neg_one_mul] at hnonneg
        exact absurd hscaled (by linarith)

theorem Rounds.zero_le {value : ℚ} {x : Single} (h : Rounds value x) (hnonneg : 0 ≤ value) :
    0 ≤ x :=
  h.le_of_le 0 isFinite_zero (toRat_zero.symm ▸ hnonneg)

/-- The square of a number is not below zero. -/
theorem zero_le_mul_self {x : Single} (hx : x.parts ≠ .notANumber) : 0 ≤ x * x := by
  have hparts := parts_mul x x
  have hfinite (hx : x.isFinite = true) : 0 ≤ x * x :=
    (rounds_mul hx hx).zero_le (mul_self_nonneg _)
  rcases hx' : x.parts with sign | _ | sign | ⟨sign, mantissa, exponent, hpos⟩
  · simp only [hx', UnpackedFloat.mul] at hparts
    rw [unpack_pack_infinity] at hparts
    refine zero_le_iff.2 (.inl (hparts.trans ?_))
    cases sign <;> rfl
  · exact absurd hx' hx
  · exact hfinite (isFinite_of_zero hx')
  · exact hfinite (isFinite_of_finite hx')

/-- A sum of numbers that are not below zero is not. -/
theorem zero_le_add {x y : Single} (hx : 0 ≤ x) (hy : 0 ≤ y) : 0 ≤ x + y := by
  have hparts := parts_add x y
  have hinfinite (h : UnpackedFloat.add Format.binary32 x.parts y.parts = .infinity .positive) :
      0 ≤ x + y := by
    rw [h, unpack_pack_infinity] at hparts
    exact zero_le_iff.2 (.inl hparts)
  rcases zero_le_iff.1 hx with hx' | ⟨hx', hnonneg⟩ <;>
    rcases zero_le_iff.1 hy with hy' | ⟨hy', hnonneg'⟩
  · exact hinfinite (by rw [hx', hy']; rfl)
  · rcases parts_of_isFinite hy' with ⟨sign, hy''⟩ | ⟨sign, mantissa, exponent, hpos, hy''⟩ <;>
      exact hinfinite (by rw [hx', hy'']; rfl)
  · rcases parts_of_isFinite hx' with ⟨sign, hx''⟩ | ⟨sign, mantissa, exponent, hpos, hx''⟩ <;>
      exact hinfinite (by rw [hx'', hy']; rfl)
  · exact (rounds_add hx' hy').zero_le (add_nonneg hnonneg hnonneg')

/-- Packing keeps the sign, and the two fields do not depend on it. -/
theorem exists_packComponents {mantissa : Nat} (exponent : Int) (hpos : 0 < mantissa) :
    ∃ field fraction, ∀ sign,
      UnpackedFloat.pack Format.binary32 (.finite sign mantissa exponent hpos) =
        UnpackedFloat.packComponents Format.binary32 sign field fraction := by
  simp only [UnpackedFloat.pack]
  split
  · exact ⟨_, _, fun _ => rfl⟩
  · split
    · exact ⟨_, _, fun _ => rfl⟩
    · exact ⟨_, _, fun _ => rfl⟩

theorem zero_le_of_positive {x : Single} {mantissa : Nat} {exponent : Int} {hpos : 0 < mantissa}
    (hx : x.parts = UnpackedFloat.unpack Format.binary32
      (UnpackedFloat.pack Format.binary32 (.finite .positive mantissa exponent hpos))) : 0 ≤ x := by
  have hnumber : x.parts ≠ .notANumber := hx ▸ unpack_pack_ne_notANumber nofun
  obtain ⟨field, fraction, hpack⟩ := exists_packComponents exponent hpos
  rw [hpack, unpack_packComponents] at hx
  refine le_iff_parts.2 ?_
  split at hx
  · split at hx
    · exact ⟨.lt, by rw [hx]; rfl, rfl⟩
    · exact absurd hx hnumber
  · split at hx
    · split at hx
      · exact ⟨.eq, by rw [hx]; rfl, rfl⟩
      · exact ⟨.lt, by rw [hx]; rfl, rfl⟩
    · exact ⟨.lt, by rw [hx]; rfl, rfl⟩

/-- The square root of a number that is not below zero is not. -/
theorem zero_le_sqrt {x : Single} (hx : 0 ≤ x) : 0 ≤ (Scalar.sqrt x : Single) := by
  have hparts := parts_sqrt x
  rcases parts_of_zero_le hx with hx' | ⟨sign, hx'⟩ | ⟨mantissa, exponent, hpos, hx'⟩
  · simp only [hx', UnpackedFloat.sqrt] at hparts
    rw [unpack_pack_infinity] at hparts
    exact zero_le_iff.2 (.inl hparts)
  · simp only [hx', UnpackedFloat.sqrt] at hparts
    exact (rounds_zero hparts).zero_le le_rfl
  · simp only [hx', UnpackedFloat.sqrt, UnpackedFloat.roundWithAccuracy] at hparts
    split at hparts
    · exact (rounds_zero hparts).zero_le le_rfl
    · exact zero_le_of_positive hparts

/-! ## The same value -/

/-- The same value: equal as numbers, or both no number. -/
def Same (a b : Single) : Prop := (a == b) = true ∨ a.isNumber = false ∧ b.isNumber = false

/-- Adding a zero leaves the value. -/
theorem same_add_zero (a : Single) {b : Single} (hb : b.isFinite = true) (hzero : b.toRat = 0) :
    Same (a + b) a := by
  have hfinite (ha : a.isFinite = true) : Same (a + b) a := by
    obtain ⟨hsum, hvalue⟩ := add_of_right_zero ha hb hzero
    exact .inl ((beq_iff_toRat hsum ha).2 hvalue)
  rcases ha : a.parts with sign | _ | sign | ⟨sign, mantissa, exponent, hpos⟩
  · have hparts : (a + b).parts = .infinity sign := by
      rw [parts_add, ha]
      rcases parts_of_isFinite hb with ⟨sign', hb'⟩ | ⟨sign', mantissa, exponent, hpos, hb'⟩ <;>
        rw [hb'] <;> exact unpack_pack_infinity sign
    refine .inl ?_
    change UnpackedFloat.beq (a + b).value.toModel.unpack a.value.toModel.unpack = true
    rw [unpack_value, unpack_value, hparts, ha]
    exact beq_self nofun
  · have hparts : (a + b).parts = .notANumber := by
      rw [parts_add, ha]
      exact unpack_pack_notANumber
    exact .inr ⟨isNumber_eq_false hparts, isNumber_eq_false ha⟩
  · exact hfinite (isFinite_of_zero ha)
  · exact hfinite (isFinite_of_finite ha)

theorem same_refl (a : Single) : Same a a := by
  by_cases ha : a.parts = .notANumber
  · exact .inr ⟨isNumber_eq_false ha, isNumber_eq_false ha⟩
  · refine .inl ?_
    change UnpackedFloat.beq a.value.toModel.unpack a.value.toModel.unpack = true
    rw [unpack_value]
    exact beq_self ha

end Single

end ParticleDynamics
