import ParticleDynamics.Json.Codec
import ParticleDynamics.Proofs.Decimal.Margin
import ParticleDynamics.Proofs.Json.Double
import ParticleDynamics.Proofs.Single.Kinds

/-!
# Numbers survive writing and reading

A number of single precision is written as its shortest decimal, and the reader takes that by way of
a double that may be off. It gets the number back all the same
(`Literal.toSingle?_of_literal?`): the layout of the digits changes neither what they denote nor how
much of it the reader takes in (`Literal.lays_place`), and the shortest decimals stay clear of the
numbers next to theirs by more than the double is off (`Shortest.decimal_outcome`). For the one
decimal that does not, the reading is carried out.
-/

namespace ParticleDynamics

open BinaryFormat

/-! ## Digits -/

namespace Digit

theorem foldl_eq (n : Nat) (digits : List Digit) :
    digits.foldl (fun n d => 10 * n + d.val) n = n * 10 ^ digits.length + toNat digits := by
  induction digits generalizing n with
  | nil => simp [toNat]
  | cons d digits ih =>
    rw [toNat, List.foldl_cons, List.foldl_cons, ih, ih (10 * 0 + d.val), List.length_cons]
    ring

theorem toNat_append (digits digits' : List Digit) :
    toNat (digits ++ digits') = toNat digits * 10 ^ digits'.length + toNat digits' := by
  rw [toNat, List.foldl_append, foldl_eq]
  rfl

theorem toNat_zeros (count : Nat) : toNat (List.replicate count zero) = 0 := by
  induction count with
  | zero => rfl
  | succ count ih =>
    rw [List.replicate_succ', toNat_append, ih]
    rfl

theorem toNat_lt (digits : List Digit) : toNat digits < 10 ^ digits.length := by
  induction digits with
  | nil => exact Nat.one_pos
  | cons d digits ih =>
    have hd := d.isLt
    rw [← List.singleton_append, toNat_append, List.length_append, List.length_singleton]
    have : toNat [d] = d.val := by simp [toNat]
    rw [this, pow_add, pow_one]
    nlinarith

theorem ofNat_ne_nil (n : Nat) : ofNat n ≠ [] := by
  rw [ofNat]
  split <;> simp

end Digit

namespace DecimalStyle

/-- A number has a literal when it is finite. -/
theorem exists_literal?_iff (style : DecimalStyle) (x : Single) :
    (∃ l, style.literal? x = some l) ↔ x.isFinite = true := by
  rw [Single.isFinite_iff_kind]
  unfold literal?
  split
  next q hkind => exact ⟨fun _ => ⟨_, _, hkind⟩, fun _ => ⟨_, rfl⟩⟩
  next m q _ hkind =>
    rcases Shortest.decimal m q with ⟨n, k⟩
    exact ⟨fun _ => ⟨_, _, hkind⟩, fun _ => ⟨_, rfl⟩⟩
  next hkind =>
    refine ⟨fun ⟨_, h⟩ => ?_, fun ⟨m, q, h⟩ => absurd h (hkind m q)⟩
    cases h

end DecimalStyle

namespace Literal

/-! ## Layout -/

/-- All digits are taken in as long as their number fits. -/
theorem absorb_eq {n : Nat} {digits : List Digit}
    (h : digits.foldl (fun n d => 10 * n + d.val) n ≤ greatestSignificand) :
    absorb n digits = (digits.foldl (fun n d => 10 * n + d.val) n, []) := by
  induction digits generalizing n with
  | nil => rfl
  | cons d digits ih =>
    rw [List.foldl_cons] at h ⊢
    have hle : 10 * n + d.val ≤ greatestSignificand := by
      rw [Digit.foldl_eq] at h
      have := Nat.le_mul_of_pos_right (10 * n + d.val)
        (Nat.pow_pos (n := digits.length) (by decide : 0 < 10))
      omega
    rw [absorb, if_pos hle, ih h]

/-- A literal with a significand that fits is taken in as it is. -/
theorem leading_eq {l : Literal} (h : l.significand ≤ greatestSignificand) :
    l.leading = (l.significand, l.scale) := by
  have hwhole : Digit.toNat l.whole ≤ greatestSignificand := by
    rw [significand, Digit.toNat_append] at h
    have := Nat.le_mul_of_pos_right (Digit.toNat l.whole)
      (Nat.pow_pos (n := l.fraction.length) (by decide : 0 < 10))
    omega
  have hfraction : l.fraction.foldl (fun n d => 10 * n + d.val) (Digit.toNat l.whole) =
      l.significand := by
    rw [significand, Digit.toNat, Digit.toNat, List.foldl_append]
  have habsorb : absorb (Digit.toNat l.whole) l.fraction = (l.significand, []) := by
    rw [absorb_eq (hfraction ▸ h), hfraction]
  rw [leading, absorb_eq (n := 0) hwhole]
  dsimp only
  rw [show l.whole.foldl (fun n d => 10 * n + d.val) 0 = Digit.toNat l.whole from rfl, habsorb,
    scale]
  simp

/-- What the layout of the decimal `n * 10 ^ k` leaves of it: the digits, or, where the point comes
after the last of them, the digits and some zeros. -/
structure Lays (l : Literal) (n : Nat) (k : Int) : Prop where
  isWhole_eq : l.isWhole = false
  leading_eq : l.leading = (n, k) ∨
    0 ≤ k ∧ n * 10 ^ (k.toNat + 1) < 2 ^ 53 ∧ l.leading = (n * 10 ^ (k.toNat + 1), -1)

theorem lays_of_scale {l : Literal} {n : Nat} {k : Int} (hwhole : l.isWhole = false)
    (hlt : n < 2 ^ 28) (hsignificand : l.significand = n) (hscale : l.scale = k) : Lays l n k := by
  have hle : l.significand ≤ greatestSignificand := by
    rw [hsignificand]
    exact hlt.le.trans (by decide)
  exact ⟨hwhole, .inl (by rw [Literal.leading_eq hle, hsignificand, hscale])⟩

/-- Digits that are filled up with zeros to the point, and have another one after it. -/
theorem lays_padded (negative : Bool) {digits : List Digit} {n : Nat} {k : Int}
    (hdigits : Digit.toNat digits = n) (hnonneg : 0 ≤ k) (hmost : k + digits.length - 1 ≤ 12) :
    Lays ⟨negative, digits ++ List.replicate k.toNat Digit.zero, [Digit.zero], none⟩ n k := by
  have hbound := Digit.toNat_lt digits
  rw [hdigits] at hbound
  have hsignificand : significand ⟨negative, digits ++ List.replicate k.toNat Digit.zero,
      [Digit.zero], none⟩ = n * 10 ^ (k.toNat + 1) := by
    rw [significand, List.append_assoc, show [Digit.zero] = List.replicate 1 Digit.zero from rfl,
      List.replicate_append_replicate, Digit.toNat_append, hdigits, Digit.toNat_zeros,
      List.length_replicate, Nat.add_zero]
  have hfits : n * 10 ^ (k.toNat + 1) < 2 ^ 53 := by
    calc n * 10 ^ (k.toNat + 1)
      _ < 10 ^ digits.length * 10 ^ (k.toNat + 1) :=
        Nat.mul_lt_mul_of_pos_right hbound (Nat.pow_pos (by decide))
      _ = 10 ^ (digits.length + (k.toNat + 1)) := (pow_add _ _ _).symm
      _ ≤ 10 ^ 14 := Nat.pow_le_pow_right (by decide) (by omega)
      _ < 2 ^ 53 := by decide
  refine ⟨rfl, .inr ⟨hnonneg, hfits, ?_⟩⟩
  rw [Literal.leading_eq (hsignificand ▸ hfits.le.trans (by decide)), hsignificand]
  rfl

/-- **The layout keeps what the digits denote.** -/
theorem lays_place (negative : Bool) {n : Nat} {k : Int} (hlt : n < 2 ^ 28) :
    Lays (Json.style.place negative (Digit.ofNat n) (k + Int.ofNat (Digit.ofNat n).length - 1))
      n k := by
  have hdigits := Digit.toNat_ofNat n
  have hlength := List.length_pos_iff.2 (Digit.ofNat_ne_nil n)
  generalize Digit.ofNat n = digits at *
  rw [Int.ofNat_eq_natCast]
  unfold DecimalStyle.place
  split
  next hscientific =>
    -- one digit before the point, the exponent written out
    refine lays_of_scale ?_ hlt ?_ ?_
    · simp [isWhole]
    · rw [significand, List.take_append_drop, hdigits]
    · rw [scale]
      simp only [Option.getD_some, List.length_drop, Int.ofNat_eq_natCast]
      omega
  next hplain =>
    have hmost : k + digits.length - 1 ≤ 12 := not_lt.1 (not_or.1 hplain).2
    split
    next hsmall =>
      -- less than one: zeros come between the point and the digits
      refine lays_of_scale ?_ hlt ?_ ?_
      · have hne : digits ≠ [] := List.length_pos_iff.1 hlength
        simp [isWhole, hne]
      · rw [significand, ← List.append_assoc, Digit.toNat_append, hdigits,
          show [Digit.zero] = List.replicate 1 Digit.zero from rfl, List.replicate_append_replicate,
          Digit.toNat_zeros, Nat.zero_mul, Nat.zero_add]
      · rw [scale]
        simp only [Option.getD_none, List.length_append, List.length_replicate,
          Int.ofNat_eq_natCast]
        omega
    next hlarge =>
      extract_lets before whole fraction
      rcases lt_or_ge before digits.length with hmore | hless
      · -- the point comes before some of the digits
        have hne : fraction ≠ [] := by
          rw [← List.length_pos_iff, List.length_drop]
          omega
        have hzeros : before - digits.length = 0 := by omega
        rw [if_neg (by simpa using hne)]
        refine lays_of_scale ?_ hlt ?_ ?_
        · simp [isWhole, hne]
        · simp only [significand, whole, hzeros, List.replicate_zero, List.append_nil, fraction,
            List.take_append_drop, hdigits]
        · simp only [scale, fraction, Option.getD_none, List.length_drop, Int.ofNat_eq_natCast]
          omega
      · -- the point comes after the digits, which are filled up with zeros
        have hempty : fraction = [] := List.drop_eq_nil_of_le hless
        have hcount : before - digits.length = k.toNat := by omega
        have hwhole : whole = digits ++ List.replicate k.toNat Digit.zero := by
          rw [← hcount]
          exact congrArg (· ++ _) (List.take_of_length_le hless)
        rw [hempty, if_pos List.isEmpty_nil, hwhole]
        exact lays_padded negative hdigits (by omega) hmost

/-! ## Reading back -/

theorem toSingle?_of_not_isWhole {l : Literal} (h : l.isWhole = false) :
    l.toSingle? = l.scaledDouble.map fun z => Single.nearest l.negative z.1 z.2 := by
  have hnone : l.exactMagnitude? = none := by simp [exactMagnitude?, h]
  rw [toSingle?, hnone]

/-- A double in the interval of a number is converted to the number. -/
theorem single_nearest_eq {z : Nat × Int} {m : Nat} {q : Int} (hm : 0 < m)
    (hholds : Holds single m q) (hround : RoundsTo single (value z) m q) :
    single.nearest (z.1 * Nat.pow 2 z.2.toNat) (Nat.pow 2 (-z.2).toNat) = some (m, q) := by
  have hpos : 0 < z.1 := significand_pos (hround.pos hm)
  refine nearest_eq (by decide) (Nat.mul_pos hpos (Nat.pow_pos two_pos)) (Nat.pow_pos two_pos) ?_
    hholds hround
  rw [value, zpow_eq_div two_ne_zero]
  push_cast
  rw [mul_div_assoc]

/-- The reading of the one decimal that the bound on the error does not settle. -/
theorem exception_reads :
    ((double.nearest 7038531 1).bind fun x => double.quotient x (tenTo 32)).map
        (fun z => single.nearest (z.1 * Nat.pow 2 z.2.toNat) (Nat.pow 2 (-z.2).toNat)) =
      some (single.nearest 7038531 (Nat.pow 10 32)) := by
  decide +kernel

/-- A literal that lays out a readable decimal is read as a double that converts to the number. -/
theorem exists_scaledDouble {l : Literal} {m n : Nat} {q k : Int} (hm : 0 < m)
    (hholds : Holds single m q) (h : Shortest.Readable m q n k) (hlays : Lays l n k) :
    ∃ z, l.scaledDouble = some z ∧
      single.nearest (z.1 * Nat.pow 2 z.2.toNat) (Nat.pow 2 (-z.2).toNat) = some (m, q) := by
  -- However the digits are laid out, the double is near what they denote.
  obtain ⟨z, power, hz, hnear, hpower⟩ : ∃ z power, l.scaledDouble = some z ∧
      Near power (n * 10 ^ k) z ∧ (-22 ≤ k → k ≤ 22 → power ≤ 22) := by
    have hlo := h.place_ge
    have hhi := h.place_le
    rcases hlays.leading_eq with hleading | ⟨hnonneg, hfits, hleading⟩
    · obtain ⟨z, hz, hnear⟩ :=
        scaledDouble_near hleading h.pos (h.lt.trans (by decide)) (by omega)
      exact ⟨z, _, hz, hnear, fun _ _ => by omega⟩
    · obtain ⟨z, hz, hnear⟩ := scaledDouble_near hleading
        (Nat.mul_pos h.pos (Nat.pow_pos (by decide))) hfits (by decide)
      refine ⟨z, 1, hz, ?_, fun _ _ => by decide⟩
      have hvalue : ((n * 10 ^ (k.toNat + 1) : Nat) : ℚ) * 10 ^ (-1 : Int) = n * 10 ^ k := by
        obtain ⟨place, rfl⟩ := Int.eq_ofNat_of_zero_le hnonneg
        rw [zpow_natCast, Int.toNat_natCast, pow_succ]
        push_cast
        rw [zpow_neg_one]
        field_simp
      rwa [hvalue] at hnear
  refine ⟨z, hz, ?_⟩
  rcases h.margin with hsteady | ⟨⟨e, he, hend⟩, hlo, hhi⟩ | ⟨rfl, rfl, rfl⟩
  · exact single_nearest_eq hm hholds (hsteady _ hnear.close)
  · refine single_nearest_eq hm hholds ?_
    have hleast : -149 ≤ q := hholds.least_le
    rw [hnear.exact (hpower hlo hhi) e (q - 1) (he.trans (by decide)) (by omega) hend]
    exact h.roundsTo
  · have hread := exception_reads
    have hleading := hlays.leading_eq.resolve_right (fun h => absurd h.1 (by decide))
    have hscaled : l.scaledDouble =
        (double.nearest 7038531 1).bind fun x => double.quotient x (tenTo 32) := by
      simp only [scaledDouble, hleading, Option.bind_eq_bind]
      congr 1
      funext x
      rw [if_neg (by decide), scaleDown, if_pos (by decide)]
      rfl
    rw [← hscaled, hz, Option.map_some] at hread
    rw [Option.some.inj hread]
    refine nearest_eq (by decide) (by decide) (Nat.pow_pos (by decide)) ?_ hholds h.roundsTo
    norm_num

theorem negative_place (style : DecimalStyle) (negative : Bool) (digits : List Digit)
    (exponent : Int) : (style.place negative digits exponent).negative = negative := by
  unfold DecimalStyle.place
  split
  · rfl
  · split <;> rfl

/-- A zero is read back with its sign. -/
theorem toSingle?_zero (negative : Bool) :
    toSingle? ⟨negative, [Digit.zero], [Digit.zero], none⟩ =
      some (Single.ofParts negative 0 (-149)) := by
  have hleading : leading ⟨negative, [Digit.zero], [Digit.zero], none⟩ = (0, -1) := rfl
  have hdouble : double.nearest 0 1 = some (0, -1074) := rfl
  have hscaled : scaledDouble ⟨negative, [Digit.zero], [Digit.zero], none⟩ =
      some (0, -1074) := by
    simp only [scaledDouble, hleading, hdouble, Option.bind_eq_bind, Option.bind_some]
    rw [if_neg (by decide), scaleDown, if_pos (by decide)]
    decide
  rw [toSingle?_of_not_isWhole rfl, hscaled]
  rfl

/-- **A number is read back from its literal**, with its sign. The literal is a shortest one, and
reading it goes by a double; the two are joined by the margin that decimals keep to the middle of
two singles. -/
theorem toSingle?_of_literal? {x : Single} {l : Literal} (h : Json.style.literal? x = some l) :
    l.toSingle? = some x := by
  unfold DecimalStyle.literal? at h
  split at h
  next q hkind =>
    obtain rfl := Option.some.inj h
    have hholds := Single.holds_of_kind hkind
    obtain rfl : q = -149 := hholds.full.resolve_left (by decide)
    rw [toSingle?_zero]
    exact congrArg some (Single.ofParts_of_kind hkind)
  next m q hzero hkind =>
    have hm : 0 < m := Nat.pos_of_ne_zero hzero
    have hholds := Single.holds_of_kind hkind
    rcases hdecimal : Shortest.decimal m q with ⟨n, k⟩
    have hreadable := Shortest.decimal_outcome hm hholds hdecimal
    rw [hdecimal] at h
    obtain rfl := Option.some.inj h
    have hlays := lays_place (k := k) x.isNegative hreadable.lt
    obtain ⟨z, hz, hnearest⟩ := exists_scaledDouble hm hholds hreadable hlays
    rw [toSingle?_of_not_isWhole hlays.isWhole_eq, hz, Option.map_some, Single.nearest, hnearest,
      negative_place]
    exact congrArg some (Single.ofParts_of_kind hkind)
  next => cases h

end Literal

end ParticleDynamics
