import ParticleDynamics.Proofs.Single.Growth
import ParticleDynamics.Proofs.Single.Values

/-!
# Rounded results

What the core library rounds lies next to the exact result: no finite number is strictly between the
two (`Single.Rounds`). A mantissa is cut off behind its leading 24 bits or behind the least
exponent (`Single.Cut`), and then either left or raised by one. Numbers with a smaller exponent
than the rounded one lie below all of this, and the others are whole multiples of its unit, so
rounding steps over none of them (`Single.adjacent_of_cut`).

So a result between two finite numbers stays between them (`Single.Rounds.mem`), and a result that
some finite number has exactly is not rounded at all (`Single.Rounds.eq`).
-/

namespace ParticleDynamics

namespace Single

open Float.Model (Format UnpackedFloat totalExponent)
open Float.Model.UnpackedFloat (Sign Accuracy ExtendedMantissa)

/-! ## Cutting off bits -/

/-- The mantissa is the whole part of a value, and the further bits tell whether it is all of it. -/
structure Cut (em : ExtendedMantissa) (value : ℚ) : Prop where
  /-- not more than the value -/
  le : em.mantissa ≤ value
  /-- less than one below it -/
  lt : value < em.mantissa + 1
  /-- no bit is set behind the mantissa exactly if nothing was cut off -/
  exact_iff : em.roundBit = false ∧ em.stickyBit = false ↔ value = em.mantissa

theorem cut_exact (mantissa : Nat) : Cut (.ofMantissaAndAccuracy mantissa .exact) mantissa :=
  ⟨le_rfl, lt_add_one _, iff_of_true ⟨rfl, rfl⟩ rfl⟩

/-- Of a quotient the whole part is kept, and how far it is from the next one. -/
theorem cut_div (mantissa : Nat) {divisor : Nat} (hpos : 0 < divisor) :
    Cut (.ofMantissaAndAccuracy (mantissa / divisor)
      (UnpackedFloat.accuracyOfFraction (mantissa % divisor) divisor))
        ((mantissa : ℚ) / divisor) := by
  have hdivisor : (0 : ℚ) < divisor := Nat.cast_pos.2 hpos
  have hwhole : (mantissa : ℚ) = divisor * ((mantissa / divisor : ℕ) : ℚ) +
      ((mantissa % divisor : ℕ) : ℚ) := by
    exact_mod_cast (Nat.div_add_mod mantissa divisor).symm
  have hrest : ((mantissa % divisor : ℕ) : ℚ) < divisor :=
    Nat.cast_lt.2 (Nat.mod_lt mantissa hpos)
  have hkept (accuracy : Accuracy) :
      (ExtendedMantissa.ofMantissaAndAccuracy (mantissa / divisor) accuracy).mantissa =
        mantissa / divisor := by
    rcases accuracy with _ | _ | _ | _ <;> rfl
  refine ⟨?_, ?_, ?_⟩ <;> rw [hkept]
  · rw [le_div_iff₀ hdivisor, hwhole]
    nlinarith [Nat.cast_nonneg (α := ℚ) (mantissa % divisor)]
  · rw [div_lt_iff₀ hdivisor]
    nlinarith
  · -- nothing is left over exactly if there is no remainder
    have hzero : (mantissa : ℚ) / divisor = ((mantissa / divisor : ℕ) : ℚ) ↔
        mantissa % divisor = 0 := by
      rw [div_eq_iff hdivisor.ne', hwhole, ← Nat.cast_eq_zero (R := ℚ)]
      constructor <;> intro h <;> linarith
    rw [hzero, UnpackedFloat.accuracyOfFraction]
    split
    next hnone => exact iff_of_true ⟨rfl, rfl⟩ hnone
    next hsome =>
      refine iff_of_false ?_ hsome
      cases compare (2 * (mantissa % divisor)) divisor <;>
        simp [ExtendedMantissa.ofMantissaAndAccuracy]

/-- One more bit is cut off. -/
theorem Cut.shiftRightOne {em : ExtendedMantissa} {value : ℚ} (h : Cut em value) :
    Cut em.shiftRightOne (value / 2) := by
  obtain ⟨mantissa, roundBit, stickyBit⟩ := em
  obtain ⟨hle, hlt, hexact⟩ := h
  dsimp only at hle hlt hexact
  have hwhole : (mantissa : ℚ) = 2 * ((mantissa / 2 : ℕ) : ℚ) + ((mantissa % 2 : ℕ) : ℚ) := by
    exact_mod_cast (Nat.div_add_mod mantissa 2).symm
  have hlast : ((mantissa % 2 : ℕ) : ℚ) ≤ 1 := by
    exact_mod_cast Nat.le_of_lt_succ (Nat.mod_lt mantissa two_pos)
  have hlast' : (0 : ℚ) ≤ ((mantissa % 2 : ℕ) : ℚ) := Nat.cast_nonneg _
  refine ⟨?_, ?_, ?_⟩ <;> simp only [ExtendedMantissa.shiftRightOne]
  · linarith
  · linarith
  · simp only [bne_eq_false_iff_eq, Bool.or_eq_false_iff]
    constructor
    · rintro ⟨heven, hnone⟩
      rw [heven, Nat.cast_zero, add_zero] at hwhole
      rw [hexact.1 hnone, hwhole]
      ring
    · -- an even mantissa and nothing behind it, or the half would lie above
      intro hhalf
      have hvalue : value = mantissa := by linarith
      refine ⟨?_, hexact.2 hvalue⟩
      have hzero : ((mantissa % 2 : ℕ) : ℚ) = 0 := by linarith
      exact_mod_cast hzero

theorem Cut.shiftRight {em : ExtendedMantissa} {value : ℚ} (h : Cut em value) (count : Nat) :
    Cut (em >>> count) (value / 2 ^ count) := by
  change Cut (Nat.repeat ExtendedMantissa.shiftRightOne count em) _
  induction count with
  | zero => simpa [Nat.repeat] using h
  | succ count ih =>
    rw [Nat.repeat, pow_succ, ← div_div]
    exact ih.shiftRightOne

/-- Rounding does not step over a whole number from above. -/
theorem Cut.le_rounded {em : ExtendedMantissa} {value : ℚ} (h : Cut em value) {whole : Nat}
    (hle : (whole : ℚ) ≤ value) : whole ≤ em.roundedMantissa := by
  have hkept : whole ≤ em.mantissa := by
    have hlt : (whole : ℚ) < em.mantissa + 1 := hle.trans_lt h.lt
    exact Nat.le_of_lt_succ (by exact_mod_cast hlt)
  rcases roundedMantissa_eq_or em with hsame | hmore <;> omega

/-- Rounding does not step over a whole number from below. -/
theorem Cut.rounded_le {em : ExtendedMantissa} {value : ℚ} (h : Cut em value) {whole : Nat}
    (hle : value ≤ whole) : em.roundedMantissa ≤ whole := by
  have hkept : em.mantissa ≤ whole := by exact_mod_cast h.le.trans hle
  rcases hkept.lt_or_eq with hlt | rfl
  · rcases roundedMantissa_eq_or em with hsame | hmore <;> omega
  · -- nothing was cut off, so nothing is rounded up
    obtain ⟨hround, hsticky⟩ := h.exact_iff.2 (le_antisymm hle h.le)
    obtain ⟨mantissa, roundBit, stickyBit⟩ := em
    obtain rfl : roundBit = false := hround
    obtain rfl : stickyBit = false := hsticky
    exact le_rfl

/-! ## Where bits are cut off -/

/-- A mantissa that is long enough, or has the least exponent, is aligned by cutting off bits. -/
theorem exists_aligned {mantissa : Nat} {exponent : Int} {accuracy : Accuracy} {value : ℚ}
    (hcut : Cut (.ofMantissaAndAccuracy mantissa accuracy) value)
    (hlong : exponent ≤ -149 ∨ 23 ≤ mantissa.log2) :
    ∃ em exponent' value',
      UnpackedFloat.shiftToTargetExponent Format.binary32 mantissa exponent accuracy =
        (em, exponent') ∧
      Aligned em.mantissa exponent' ∧ Cut em value' ∧
      value' * 2 ^ exponent' = value * 2 ^ exponent := by
  have hbits : Format.binary32.mantissaBits = 24 := rfl
  have hleast : Format.binary32.minExponent = -149 := rfl
  obtain ⟨count, hcount⟩ : ∃ count : Nat,
      (Format.binary32.targetExponent (totalExponent mantissa exponent) - exponent).toNat = count :=
    ⟨_, rfl⟩
  have htarget : exponent + count = max (mantissa.log2 + exponent - 23) (-149) := by
    simp only [← hcount, Format.targetExponent, totalExponent, hbits, hleast]
    omega
  have hkept : (ExtendedMantissa.ofMantissaAndAccuracy mantissa accuracy).mantissa = mantissa := by
    rcases accuracy with _ | _ | _ | _ <;> rfl
  refine ⟨_, exponent + count, value / 2 ^ count, ?_, ?_, hcut.shiftRight count, ?_⟩
  · simp only [UnpackedFloat.shiftToTargetExponent, UnpackedFloat.shiftToExponent, hcount]
  · rw [mantissa_shiftRight, hkept]
    refine ⟨?_, by omega, ?_⟩
    · rw [Nat.div_lt_iff_lt_mul (Nat.two_pow_pos _), ← Nat.pow_add]
      exact Nat.lt_log2_self.trans_le (Nat.pow_le_pow_right two_pos (by omega))
    · -- above the least exponent the leading bit comes to stand in front
      refine or_iff_not_imp_left.2 fun hgreater => ?_
      have hne : mantissa ≠ 0 := by
        rintro rfl
        rw [show Nat.log2 0 = 0 from rfl] at htarget hlong
        omega
      rw [Nat.le_div_iff_mul_le (Nat.two_pow_pos _), ← Nat.pow_add]
      exact (Nat.pow_le_pow_right two_pos (by omega)).trans (Nat.log2_self_le hne)
  · rw [zpow_add₀ two_ne_zero, zpow_natCast, div_mul_eq_mul_div, div_eq_iff (by positivity)]
    ring

/-- A mantissa that was rounded up to one bit too many is aligned without loss. -/
theorem exists_realigned {mantissa : Nat} {exponent : Int} (hle : mantissa ≤ 2 ^ 24)
    (hge : -149 ≤ exponent) (hfull : exponent = -149 ∨ 2 ^ 23 ≤ mantissa) :
    ∃ em exponent',
      UnpackedFloat.shiftToTargetExponent Format.binary32 mantissa exponent .exact =
        (em, exponent') ∧
      Aligned em.mantissa exponent' ∧ scaled em.mantissa exponent' = scaled mantissa exponent := by
  rcases hle.lt_or_eq with hlt | rfl
  · have hbits : Format.binary32.mantissaBits = 24 := rfl
    have hleast : Format.binary32.minExponent = -149 := rfl
    have hlog : mantissa.log2 ≤ 23 := by
      rcases Nat.eq_zero_or_pos mantissa with rfl | hpos
      · exact Nat.zero_le _
      · exact Nat.le_of_lt_succ ((Nat.log2_lt hpos.ne').2 hlt)
    have hstay : (Format.binary32.targetExponent (totalExponent mantissa exponent) -
        exponent).toNat = 0 := by
      simp only [Format.targetExponent, totalExponent, hbits, hleast]
      omega
    refine ⟨.ofMantissaAndAccuracy mantissa .exact, exponent, ?_, ⟨hlt, hge, hfull⟩, rfl⟩
    simp only [UnpackedFloat.shiftToTargetExponent, UnpackedFloat.shiftToExponent, hstay,
      Int.natCast_zero, Int.add_zero]
    rfl
  · have hfull' : (2 ^ 23).log2 = 23 := by decide
    have hcarry := shiftToTargetExponent_of_trailing hfull' (show -149 ≤ exponent + 1 by omega) 1
    rw [Int.natCast_one, Int.add_sub_cancel] at hcarry
    have hsame := scaled_shift (2 ^ 23) 1 (exponent + 1)
    rw [Int.natCast_one, Int.add_sub_cancel] at hsame
    exact ⟨_, _, hcarry, ⟨by decide, by omega, .inr le_rfl⟩, hsame.symm⟩

/-! ## Rounding steps over no number -/

/-- No aligned mantissa stands strictly between the two values. -/
def Adjacent (value rounded : ℚ) : Prop :=
  ∀ mantissa exponent, Aligned mantissa exponent →
    (scaled mantissa exponent ≤ value → scaled mantissa exponent ≤ rounded) ∧
      (value ≤ scaled mantissa exponent → rounded ≤ scaled mantissa exponent)

/-- Under exponents that are not smaller, mantissas are whole multiples. -/
theorem exists_multiple (mantissa : Nat) {exponent exponent' : Int} (hle : exponent ≤ exponent') :
    ∃ multiple : Nat, scaled mantissa exponent' = multiple * 2 ^ exponent := by
  have hgap : exponent' - ((exponent' - exponent).toNat : Int) = exponent := by omega
  rw [← scaled_shift mantissa (exponent' - exponent).toNat exponent', hgap]
  exact ⟨_, rfl⟩

theorem adjacent_of_cut {em : ExtendedMantissa} {exponent : Int} {value : ℚ}
    (haligned : Aligned em.mantissa exponent) (hcut : Cut em value) :
    Adjacent (value * 2 ^ exponent) (scaled em.roundedMantissa exponent) := by
  have hunit : (0 : ℚ) < 2 ^ exponent := zpow_pos two_pos exponent
  intro mantissa exponent' h
  rcases lt_or_ge exponent' exponent with hless | hmore
  · -- a smaller exponent cannot reach what was cut off
    have hge := h.exponent_ge
    have hbelow : scaled mantissa exponent' < scaled em.mantissa exponent :=
      scaled_lt_of_exponent_lt h.mantissa_lt (haligned.full.resolve_left (by omega)) hless
    have hkept : scaled em.mantissa exponent ≤ value * 2 ^ exponent :=
      mul_le_mul_of_nonneg_right hcut.le hunit.le
    have hround : scaled em.mantissa exponent ≤ scaled em.roundedMantissa exponent :=
      (scaled_le_scaled_iff exponent).2 (hcut.le_rounded hcut.le)
    exact ⟨fun _ => hbelow.le.trans hround, fun hle => absurd (hkept.trans hle) hbelow.not_ge⟩
  · obtain ⟨multiple, hmultiple⟩ := exists_multiple mantissa hmore
    rw [hmultiple, scaled, mul_le_mul_iff_left₀ hunit, mul_le_mul_iff_left₀ hunit,
      mul_le_mul_iff_left₀ hunit, mul_le_mul_iff_left₀ hunit, Nat.cast_le, Nat.cast_le]
    exact ⟨hcut.le_rounded, hcut.rounded_le⟩

/-- **Rounding steps over no aligned mantissa.** -/
theorem exists_rounded (sign : Sign) {mantissa : Nat} {exponent : Int} {accuracy : Accuracy}
    {value : ℚ} (hcut : Cut (.ofMantissaAndAccuracy mantissa accuracy) value)
    (hlong : exponent ≤ -149 ∨ 23 ≤ mantissa.log2) :
    ∃ rounded exponent', Aligned rounded exponent' ∧
      Adjacent (value * 2 ^ exponent) (scaled rounded exponent') ∧
      UnpackedFloat.roundWithAccuracy Format.binary32 sign mantissa exponent accuracy =
        if h : rounded = 0 then .zero sign
        else .finite sign rounded exponent' (Nat.pos_of_ne_zero h) := by
  obtain ⟨em, exponent₁, value₁, hfirst, haligned, hcut₁, hvalue⟩ := exists_aligned hcut hlong
  have hround := roundedMantissa_eq_or em
  have hlt := haligned.mantissa_lt
  obtain ⟨last, exponent₂, hsecond, haligned₂, hsame⟩ := exists_realigned
    (show em.roundedMantissa ≤ 2 ^ 24 by omega) haligned.exponent_ge
    (haligned.full.imp_right fun hlead => by omega)
  refine ⟨last.mantissa, exponent₂, haligned₂, ?_, ?_⟩
  · rw [hsame, ← hvalue]
    exact adjacent_of_cut haligned hcut₁
  · simp only [UnpackedFloat.roundWithAccuracy, hfirst, hsecond]

/-- Zero is aligned. -/
theorem aligned_zero : Aligned 0 (-149) := ⟨by decide, le_rfl, .inl rfl⟩

/-- What holds of values without a sign holds of values with one. -/
theorem Adjacent.signed {value rounded : ℚ} (h : Adjacent value rounded) (hnonneg : 0 ≤ value)
    (sign : Sign) {other : ℚ} {mantissa : Nat} {exponent : Int}
    (haligned : Aligned mantissa exponent) (hother : |other| = scaled mantissa exponent) :
    (other ≤ factor sign * value → other ≤ factor sign * rounded) ∧
      (factor sign * value ≤ other → factor sign * rounded ≤ other) := by
  obtain ⟨hbelow, habove⟩ := h _ _ haligned
  rw [← hother] at hbelow habove
  have hrounded : 0 ≤ rounded := by
    have hzero := (h 0 (-149) aligned_zero).1
    rw [scaled, Nat.cast_zero, zero_mul] at hzero
    exact hzero hnonneg
  -- on the same side of zero both facts are used, on different sides the sign alone decides
  rcases le_total 0 other with hpos | hneg
  · rw [abs_of_nonneg hpos] at hbelow habove
    cases sign with
    | positive => simpa only [factor, one_mul] using ⟨hbelow, habove⟩
    | negative =>
      simp only [factor, neg_mul, one_mul]
      exact ⟨fun hle => by linarith [habove (by linarith)], fun _ => by linarith⟩
  · rw [abs_of_nonpos hneg] at hbelow habove
    cases sign with
    | positive =>
      simp only [factor, one_mul]
      exact ⟨fun _ => by linarith, fun hle => by linarith [habove (by linarith)]⟩
    | negative =>
      simp only [factor, neg_mul, one_mul]
      exact ⟨fun hle => by linarith [habove (by linarith)],
        fun hle => by linarith [hbelow (by linarith)]⟩

/-! ## Numbers next to a value -/

/-- The number stands for the value up to rounding: no finite number is strictly between them. -/
structure Rounds (value : ℚ) (x : Single) : Prop where
  /-- it is a number -/
  number : x.parts ≠ .notANumber
  /-- finite numbers that are not above the value are not above the number -/
  le_of_le : ∀ y : Single, y.isFinite = true → y.toRat ≤ value → y ≤ x
  /-- finite numbers that are not below the value are not below the number -/
  ge_of_ge : ∀ y : Single, y.isFinite = true → value ≤ y.toRat → x ≤ y

/-- The value of a finite number without its sign is an aligned mantissa. -/
theorem exists_scaled_of_isFinite {x : Single} (h : x.isFinite = true) :
    ∃ mantissa exponent, Canonical mantissa exponent ∧ |x.toRat| = scaled mantissa exponent := by
  rcases parts_of_isFinite h with ⟨sign, hx⟩ | ⟨sign, mantissa, exponent, hpos, hx⟩
  · refine ⟨0, -149, aligned_zero.canonical (by decide), ?_⟩
    rw [toRat_of_zero hx, abs_zero, scaled, Nat.cast_zero, zero_mul]
  · refine ⟨mantissa, exponent, canonical_of_parts hx, ?_⟩
    have hscaled := scaled_nonneg mantissa exponent
    rw [toRat_of_finite hx]
    cases sign <;> simp [factor, abs_of_nonneg hscaled]

theorem le_infinity {x y : Single} (hx : x.isFinite = true)
    (hy : y.parts = .infinity .positive) : x ≤ y := by
  refine le_iff_parts.2 ⟨.lt, ?_, rfl⟩
  rcases parts_of_isFinite hx with ⟨sign, hx⟩ | ⟨sign, mantissa, exponent, hpos, hx⟩ <;>
    rw [hx, hy] <;> cases sign <;> rfl

theorem infinity_le {x y : Single} (hx : x.parts = .infinity .negative)
    (hy : y.isFinite = true) : x ≤ y := by
  refine le_iff_parts.2 ⟨.lt, ?_, rfl⟩
  rcases parts_of_isFinite hy with ⟨sign, hy⟩ | ⟨sign, mantissa, exponent, hpos, hy⟩ <;>
    rw [hx, hy] <;> cases sign <;> rfl

/-- A finite number with an adjacent value. -/
theorem Adjacent.rounds {value rounded : ℚ} (h : Adjacent value rounded) (hnonneg : 0 ≤ value)
    {sign : Sign} {x : Single} (hx : x.isFinite = true) (hvalue : x.toRat = factor sign * rounded) :
    Rounds (factor sign * value) x := by
  refine ⟨ne_notANumber_of_isFinite hx, fun y hy hle => ?_, fun y hy hle => ?_⟩ <;>
    obtain ⟨mantissa, exponent, hcanonical, hscaled⟩ := exists_scaled_of_isFinite hy <;>
    obtain ⟨hbelow, habove⟩ := h.signed hnonneg sign hcanonical.aligned hscaled
  · rw [le_iff_toRat hy hx, hvalue]
    exact hbelow hle
  · rw [le_iff_toRat hx hy, hvalue]
    exact habove hle

/-- An infinity, where the adjacent value is beyond all finite numbers. -/
theorem Adjacent.rounds_infinity {value : ℚ} {mantissa : Nat} {exponent : Int}
    (h : Adjacent value (scaled mantissa exponent)) (hnonneg : 0 ≤ value)
    (haligned : Aligned mantissa exponent) (hgreat : 104 < exponent) {sign : Sign} {x : Single}
    (hx : x.parts = .infinity sign) : Rounds (factor sign * value) x := by
  have hbeyond {y : Single} (hy : y.isFinite = true) : |y.toRat| < scaled mantissa exponent := by
    obtain ⟨mantissa', exponent', hcanonical, hscaled⟩ := exists_scaled_of_isFinite hy
    have hle := hcanonical.exponent_le
    rw [hscaled]
    exact scaled_lt_of_exponent_lt hcanonical.mantissa_lt
      (haligned.full.resolve_left (by omega)) (by omega)
  refine ⟨by rw [hx]; exact nofun, fun y hy hle => ?_, fun y hy hle => ?_⟩ <;>
    obtain ⟨mantissa', exponent', hcanonical, hscaled⟩ := exists_scaled_of_isFinite hy <;>
    obtain ⟨hbelow, habove⟩ := h.signed hnonneg sign hcanonical.aligned hscaled <;>
    obtain ⟨hmore, hless⟩ := abs_lt.1 (hbeyond hy) <;>
    cases sign
  · -- no finite number is at most the least of the adjacent values
    have hfar := hbelow hle
    simp only [factor, neg_mul, one_mul] at hfar
    exact absurd hmore hfar.not_gt
  · exact le_infinity hy hx
  · exact infinity_le hx hy
  · have hfar := habove hle
    simp only [factor, one_mul] at hfar
    exact absurd hless hfar.not_gt

/-- **Rounding steps over no finite number.** It leaves open which of its two neighbours a value
goes to, and most of what follows does not depend on it. -/
theorem rounds_of_round {sign : Sign} {mantissa : Nat} {exponent : Int} {accuracy : Accuracy}
    {value : ℚ} (hcut : Cut (.ofMantissaAndAccuracy mantissa accuracy) value)
    (hlong : exponent ≤ -149 ∨ 23 ≤ mantissa.log2) {x : Single}
    (hx : x.parts = UnpackedFloat.unpack Format.binary32 (UnpackedFloat.pack Format.binary32
      (UnpackedFloat.roundWithAccuracy Format.binary32 sign mantissa exponent accuracy))) :
    Rounds (factor sign * (value * 2 ^ exponent)) x := by
  obtain ⟨rounded, exponent', haligned, hadjacent, hround⟩ := exists_rounded sign hcut hlong
  have hnonneg : 0 ≤ value * 2 ^ exponent :=
    mul_nonneg ((Nat.cast_nonneg _).trans hcut.le) (zpow_pos two_pos exponent).le
  rw [hround] at hx
  split at hx
  next hzero =>
    rw [unpack_pack (x := .zero sign) nofun] at hx
    refine hadjacent.rounds hnonneg (isFinite_of_zero hx) ?_
    rw [toRat_of_zero hx, hzero, scaled, Nat.cast_zero, zero_mul, mul_zero]
  next hpos =>
    rcases lt_or_ge 104 exponent' with hgreat | hsmall
    · rw [unpack_pack_great _ hgreat] at hx
      exact hadjacent.rounds_infinity hnonneg haligned hgreat hx
    · rw [unpack_pack_finite _ (haligned.canonical hsmall)] at hx
      refine hadjacent.rounds hnonneg (isFinite_of_finite hx) ?_
      exact toRat_of_finite hx

/-- A number stands for its own value. -/
theorem rounds_self {x : Single} (hx : x.isFinite = true) : Rounds x.toRat x :=
  ⟨ne_notANumber_of_isFinite hx, fun _ hy hle => (le_iff_toRat hy hx).2 hle,
    fun _ hy hle => (le_iff_toRat hx hy).2 hle⟩

theorem not_infinity_le {x y : Single} (hx : x.parts = .infinity .positive)
    (hy : y.isFinite = true) : ¬ x ≤ y := by
  rintro h
  obtain ⟨order, hcompare, hle⟩ := le_iff_parts.1 h
  rcases parts_of_isFinite hy with ⟨sign, hy⟩ | ⟨sign, mantissa, exponent, hpos, hy⟩ <;>
    rw [hx, hy] at hcompare <;> cases sign <;> cases hcompare <;> cases hle

theorem not_le_infinity {x y : Single} (hx : x.isFinite = true)
    (hy : y.parts = .infinity .negative) : ¬ x ≤ y := by
  rintro h
  obtain ⟨order, hcompare, hle⟩ := le_iff_parts.1 h
  rcases parts_of_isFinite hx with ⟨sign, hx⟩ | ⟨sign, mantissa, exponent, hpos, hx⟩ <;>
    rw [hx, hy] at hcompare <;> cases sign <;> cases hcompare <;> cases hle

/-- What is between finite numbers is finite. -/
theorem isFinite_of_mem {x lower upper : Single} (hlower : lower.isFinite = true)
    (hupper : upper.isFinite = true) (hle : lower ≤ x) (hle' : x ≤ upper) : x.isFinite = true := by
  obtain ⟨order, hcompare, -⟩ := le_iff_parts.1 hle
  have hnumber := (ne_notANumber_of_compare hcompare).2
  rcases hx : x.parts with (_ | _) | _ | sign | ⟨sign, mantissa, exponent, hpos⟩
  · exact absurd hle (not_le_infinity hlower hx)
  · exact absurd hle' (not_infinity_le hx hupper)
  · exact absurd hx hnumber
  · exact isFinite_of_zero hx
  · exact isFinite_of_finite hx

/-- **A result between two finite numbers stays between them.** This is how bounds on exact values
become bounds on computed ones. -/
theorem Rounds.mem {value : ℚ} {x lower upper : Single} (h : Rounds value x)
    (hlower : lower.isFinite = true) (hupper : upper.isFinite = true)
    (hle : lower.toRat ≤ value) (hle' : value ≤ upper.toRat) :
    x.isFinite = true ∧ lower.toRat ≤ x.toRat ∧ x.toRat ≤ upper.toRat := by
  have hbelow := h.le_of_le lower hlower hle
  have habove := h.ge_of_ge upper hupper hle'
  have hx := isFinite_of_mem hlower hupper hbelow habove
  exact ⟨hx, (le_iff_toRat hlower hx).1 hbelow, (le_iff_toRat hx hupper).1 habove⟩

/-- **A result that some finite number has exactly is not rounded.** Nothing can be said about the
sign of a zero, though. -/
theorem Rounds.eq {x y : Single} (h : Rounds y.toRat x) (hy : y.isFinite = true) :
    x.isFinite = true ∧ x.toRat = y.toRat := by
  obtain ⟨hx, hle, hge⟩ := h.mem hy hy le_rfl le_rfl
  exact ⟨hx, le_antisymm hge hle⟩

end Single

end ParticleDynamics
