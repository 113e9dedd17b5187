import ParticleDynamics.Proofs.Single.Order

/-!
# Numbers and values that are none

Numbers are ordered by their **rank** (`Single.rank`): by sign and kind, then by exponent, then by
mantissa. Everything but a value that is not a number has one, so on numbers the order is total and
transitive (`Single.le_of_not_lt`, `Single.le_trans`).

The difference of a finite number and a number may be infinite, but it is always a number
(`Single.parts_sub_ne_notANumber`), and so is its absolute value. Arithmetic on a value that is not
a number yields none again (`Single.parts_liftTwo`), so a result that is a number tells that the
operands were.
-/

namespace ParticleDynamics

namespace Single

open Float.Model (Format UnpackedFloat)
open Float.Model.UnpackedFloat (Sign)

/-! ## The order of numbers -/

/-- Where a number stands in the order: by sign and kind, then by exponent and mantissa. -/
def rank : UnpackedFloat → Int ×ₗ Int ×ₗ Int
  | .notANumber => toLex (0, toLex (0, 0))
  | .infinity .negative => toLex (-2, toLex (0, 0))
  | .finite .negative mantissa exponent _ => toLex (-1, toLex (-exponent, -mantissa))
  | .zero _ => toLex (0, toLex (0, 0))
  | .finite .positive mantissa exponent _ => toLex (1, toLex (exponent, mantissa))
  | .infinity .positive => toLex (2, toLex (0, 0))

/-- Numbers compare as their ranks do. -/
theorem isLE_compare_iff {x y : UnpackedFloat} (hx : x ≠ .notANumber) (hy : y ≠ .notANumber) :
    (∃ order, x.compare y = some order ∧ order.isLE = true) ↔ rank x ≤ rank y := by
  rcases x with (_ | _) | _ | (_ | _) | ⟨_ | _, mantissa, exponent, hpos⟩ <;>
    rcases y with (_ | _) | _ | (_ | _) | ⟨_ | _, mantissa', exponent', hpos'⟩ <;>
    simp [UnpackedFloat.compare, rank, Prod.Lex.toLex_le_toLex, isLE_compare_then,
      Ordering.swap_then, Int.compare_swap, Nat.compare_swap] at hx hy ⊢
  case finite.negative.finite.negative => rw [eq_comm]
  all_goals rfl

/-- What compares is a number. -/
theorem ne_notANumber_of_compare {x y : UnpackedFloat} {order : Ordering}
    (h : x.compare y = some order) : x ≠ .notANumber ∧ y ≠ .notANumber := by
  refine ⟨?_, ?_⟩ <;> rintro rfl
  · cases h
  · rcases x with (_ | _) | _ | (_ | _) | ⟨_ | _, mantissa, exponent, hpos⟩ <;> cases h

theorem le_iff_rank {x y : Single} (hx : x.parts ≠ .notANumber) (hy : y.parts ≠ .notANumber) :
    x ≤ y ↔ rank x.parts ≤ rank y.parts :=
  le_iff_parts.trans (isLE_compare_iff hx hy)

theorem le_trans {x y z : Single} (h : x ≤ y) (h' : y ≤ z) : x ≤ z := by
  obtain ⟨order, hcompare, -⟩ := le_iff_parts.1 h
  obtain ⟨order', hcompare', -⟩ := le_iff_parts.1 h'
  obtain ⟨hx, hy⟩ := ne_notANumber_of_compare hcompare
  obtain ⟨-, hz⟩ := ne_notANumber_of_compare hcompare'
  rw [le_iff_rank hx hz]
  exact ((le_iff_rank hx hy).1 h).trans ((le_iff_rank hy hz).1 h')

/-- Of two numbers, one is at most the other. -/
theorem le_of_not_lt {x y : Single} (hx : x.parts ≠ .notANumber) (hy : y.parts ≠ .notANumber)
    (h : ¬ y < x) : x ≤ y := by
  cases hcompare : y.parts.compare x.parts with
  | none =>
    rcases notANumber_of_compare_eq_none hcompare with hnot | hnot
    · exact absurd hnot hy
    · exact absurd hnot hx
  | some order =>
    refine le_iff_parts.2 ⟨order.swap, by rw [compare_swap, hcompare]; rfl, ?_⟩
    cases order with
    | lt => exact absurd (lt_iff_parts.2 hcompare) h
    | eq => rfl
    | gt => rfl

/-! ## Which bits are no number -/

/-- The greatest exponent field with some fraction stands for no number. -/
theorem unpack_eq_notANumber_iff {bits : BitVec 32} :
    UnpackedFloat.unpack Format.binary32 bits = .notANumber ↔
      @UnpackedFloat.unpackExponent Format.binary32 bits = -1#8 ∧
        @UnpackedFloat.unpackMantissa Format.binary32 bits ≠ 0#23 := by
  rw [UnpackedFloat.unpack]
  dsimp only
  split
  next hgreatest => split <;> simp_all
  next hless =>
    refine ⟨fun h => ?_, fun h => absurd h.1 hless⟩
    split at h
    · split at h <;> cases h
    · cases h

theorem unpack_pack_ne_notANumber {x : UnpackedFloat} (h : x ≠ .notANumber) :
    UnpackedFloat.unpack Format.binary32 (UnpackedFloat.pack Format.binary32 x) ≠ .notANumber := by
  cases x with
  | notANumber => exact absurd rfl h
  | infinity sign =>
    rw [unpack_pack (x := .infinity sign) nofun]
    exact nofun
  | zero sign =>
    rw [unpack_pack (x := .zero sign) nofun]
    exact nofun
  | finite sign mantissa exponent hpos =>
    have hbias : Format.binary32.exponentBias = 127 := rfl
    rw [UnpackedFloat.pack]
    dsimp only
    split
    · -- what is too great becomes an infinity
      rw [UnpackedFloat.packedInfinity, unpack_packComponents]
      exact nofun
    next hsmall =>
      -- no other exponent field is the greatest one
      rw [hbias] at hsmall
      rw [hbias, Ne, apply_ite (UnpackedFloat.unpack Format.binary32), ite_eq_iff]
      simp only [unpack_eq_notANumber_iff, UnpackedFloat.unpackExponent_packComponents]
      rintro (⟨-, hfield, -⟩ | ⟨-, hfield, -⟩)
      · exact ofNat_ne_ofNat (m := 255) (by omega) (by decide) (by omega) hfield
      · exact absurd hfield (by decide)

/-- The bits that are kept without the sign. -/
theorem unpackExponent_abs (x : Single) :
    @UnpackedFloat.unpackExponent Format.binary32 x.abs.bits.toBitVec =
      @UnpackedFloat.unpackExponent Format.binary32 x.bits.toBitVec := by
  have hmask : @UnpackedFloat.unpackExponent Format.binary32 (UInt32.toBitVec 0x7fffffff) =
      BitVec.allOnes 8 := rfl
  have hand (a b : BitVec 32) : @UnpackedFloat.unpackExponent Format.binary32 (a &&& b) =
      @UnpackedFloat.unpackExponent Format.binary32 a &&&
        @UnpackedFloat.unpackExponent Format.binary32 b := BitVec.extractLsb_and
  exact (hand _ _).trans (by rw [hmask, BitVec.and_allOnes])

theorem unpackMantissa_abs (x : Single) :
    @UnpackedFloat.unpackMantissa Format.binary32 x.abs.bits.toBitVec =
      @UnpackedFloat.unpackMantissa Format.binary32 x.bits.toBitVec := by
  have hmask : @UnpackedFloat.unpackMantissa Format.binary32 (UInt32.toBitVec 0x7fffffff) =
      BitVec.allOnes 23 := rfl
  have hand (a b : BitVec 32) : @UnpackedFloat.unpackMantissa Format.binary32 (a &&& b) =
      @UnpackedFloat.unpackMantissa Format.binary32 a &&&
        @UnpackedFloat.unpackMantissa Format.binary32 b := BitVec.extractLsb_and
  exact (hand _ _).trans (by rw [hmask, BitVec.and_allOnes])

/-- Dropping the sign of a number leaves a number. -/
theorem parts_abs_ne_notANumber {x : Single} (h : x.parts ≠ .notANumber) :
    x.abs.parts ≠ .notANumber := by
  rw [parts, Ne, unpack_eq_notANumber_iff, unpackExponent_abs, unpackMantissa_abs]
  rwa [parts, Ne, unpack_eq_notANumber_iff] at h

/-! ## Finite numbers -/

/-- Whether a value is a number and not infinite. -/
def isFinite (x : Single) : Bool :=
  match x.parts with
  | .zero _ => true
  | .finite .. => true
  | _ => false

theorem parts_of_isFinite {x : Single} (h : x.isFinite = true) :
    (∃ sign, x.parts = .zero sign) ∨
      ∃ sign mantissa exponent hpos, x.parts = .finite sign mantissa exponent hpos := by
  rw [isFinite] at h
  split at h
  next sign hx => exact .inl ⟨sign, hx⟩
  next sign mantissa exponent hpos hx => exact .inr ⟨sign, mantissa, exponent, hpos, hx⟩
  next => cases h

/-- Rounding leaves a number. -/
theorem normalize_ne_notANumber (mantissa exponent : Int) (zeroSign : Sign) :
    UnpackedFloat.normalize Format.binary32 mantissa exponent zeroSign ≠ .notANumber := by
  have hround (sign : Sign) (mantissa : Nat) :
      UnpackedFloat.round Format.binary32 sign mantissa exponent ≠ .notANumber := by
    simp only [UnpackedFloat.round, UnpackedFloat.roundWithAccuracy]
    split <;> simp
  rw [UnpackedFloat.normalize]
  split
  · exact hround _ _
  · simp
  · exact hround _ _

/-- **The difference of a finite number and a number is a number.** -/
theorem parts_sub_ne_notANumber {x y : Single} (hx : x.isFinite = true)
    (hy : y.parts ≠ .notANumber) : (x - y).parts ≠ .notANumber := by
  have hdifference : UnpackedFloat.sub Format.binary32 x.parts y.parts ≠ .notANumber := by
    rcases parts_of_isFinite hx with ⟨sign, hx⟩ | ⟨sign, mantissa, exponent, hpos, hx⟩ <;>
      rw [hx] <;>
      rcases hparts : y.parts with sign' | _ | sign' | ⟨sign', mantissa', exponent', hpos'⟩
    case inl.notANumber | inr.notANumber => exact absurd hparts hy
    case inl.zero =>
      rw [UnpackedFloat.sub]
      split <;> exact nofun
    case inr.finite => exact normalize_ne_notANumber _ _ _
    all_goals exact nofun
  have hpacked : (x.value.sub y.value).toModel.unpack ≠ .notANumber := by
    change UnpackedFloat.unpack _ (UnpackedFloat.pack _ (UnpackedFloat.sub _
      x.value.toModel.unpack y.value.toModel.unpack)) ≠ _
    rw [unpack_value, unpack_value]
    exact unpack_pack_ne_notANumber hdifference
  have hresult : x - y = ofValue (x.value.sub y.value) := if_pos (beq_self hpacked)
  rw [hresult]
  exact hpacked

/-! ## Arithmetic on values that are not a number -/

/-- Setting the quiet bit of a value that is not a number leaves one that is none. -/
theorem parts_quieted {x : Single} (h : x.parts = .notANumber) : x.quieted.parts = .notANumber := by
  have hexponent : @UnpackedFloat.unpackExponent Format.binary32 (UInt32.toBitVec quietBit) =
      0#8 := rfl
  have hmantissa : @UnpackedFloat.unpackMantissa Format.binary32 (UInt32.toBitVec quietBit) =
      4194304#23 := rfl
  have hor (a b : BitVec 32) : @UnpackedFloat.unpackExponent Format.binary32 (a ||| b) =
      @UnpackedFloat.unpackExponent Format.binary32 a |||
        @UnpackedFloat.unpackExponent Format.binary32 b := BitVec.extractLsb_or
  have hor' (a b : BitVec 32) : @UnpackedFloat.unpackMantissa Format.binary32 (a ||| b) =
      @UnpackedFloat.unpackMantissa Format.binary32 a |||
        @UnpackedFloat.unpackMantissa Format.binary32 b := BitVec.extractLsb_or
  rw [parts, unpack_eq_notANumber_iff] at h ⊢
  refine ⟨(hor _ _).trans ?_, fun hzero => ?_⟩
  · rw [hexponent, h.1]
    rfl
  · have hnone := ((hor' _ _).symm.trans hzero)
    rw [hmantissa] at hnone
    exact absurd (BitVec.or_eq_zero_iff.1 hnone).2 (by decide)

theorem isNumber_eq_false {x : Single} (h : x.parts = .notANumber) : x.isNumber = false := by
  change UnpackedFloat.beq x.value.toModel.unpack x.value.toModel.unpack = false
  rw [unpack_value, h]
  rfl

/-- **A value that is limited to a range is in the range**, unless it is not a number. -/
theorem mem_of_clamp {x lo hi limited : Single} (h : Scalar.clamp x lo hi = .ok limited) :
    lo ≤ limited ∧ limited ≤ hi ∨ limited.isNumber = false := by
  have hle : lo ≤ hi := by
    by_contra hnot
    rw [Scalar.clamp, if_neg hnot] at h
    cases h
  obtain ⟨order, hcompare, -⟩ := le_iff_parts.1 hle
  obtain ⟨hlo, hhi⟩ := ne_notANumber_of_compare hcompare
  have hrefl {y : Single} (hy : y.parts ≠ .notANumber) : y ≤ y :=
    le_of_not_lt hy hy fun hlt => lt_asymm hlt hlt
  rw [Scalar.clamp, if_pos hle, Except.ok.injEq] at h
  subst h
  by_cases hbelow : x < lo
  · -- the lower end is taken, and it is not above the upper one
    rw [if_pos hbelow]
    dsimp only
    split
    · exact .inl ⟨hle, hrefl hhi⟩
    · exact .inl ⟨hrefl hlo, hle⟩
  · rw [if_neg hbelow]
    dsimp only
    split
    next => exact .inl ⟨hle, hrefl hhi⟩
    next habove =>
      -- neither end is taken: the number lies between them, if it is one
      by_cases hx : x.parts = .notANumber
      · exact .inr (isNumber_eq_false hx)
      · exact .inl ⟨le_of_not_lt hlo hx hbelow, le_of_not_lt hx hhi habove⟩

/-- **Arithmetic on a value that is not a number yields none.** -/
theorem parts_lift {operation : Float32 → Float32} {x : Single} (hx : x.parts = .notANumber)
    (hresult : (operation x.value).toModel.unpack = .notANumber) :
    (lift operation x).parts = .notANumber := by
  have hnone : (operation x.value == operation x.value) = false := by
    change UnpackedFloat.beq _ _ = false
    rw [hresult]
    rfl
  simp only [lift, hnone, Bool.false_eq_true, if_false, failure, isNumber_eq_false hx]
  exact parts_quieted hx

theorem parts_liftTwo {operation : Float32 → Float32 → Float32}
    {model : UnpackedFloat → UnpackedFloat → UnpackedFloat}
    (hmodel : ∀ a b : Float32,
      (operation a b).toModel = .pack (model a.toModel.unpack b.toModel.unpack))
    (hleft : ∀ b, model .notANumber b = .notANumber) {x : Single} (hx : x.parts = .notANumber)
    (y : Single) : (liftTwo operation x y).parts = .notANumber := by
  have hresult : (operation x.value y.value).toModel.unpack = .notANumber := by
    rw [hmodel, unpack_value, hx, hleft]
    rfl
  have hnone : (operation x.value y.value == operation x.value y.value) = false := by
    change UnpackedFloat.beq _ _ = false
    rw [hresult]
    rfl
  simp only [liftTwo, hnone, Bool.false_eq_true, if_false, failureOfTwo, isNumber_eq_false hx]
  exact parts_quieted hx

theorem notANumber_sub {x : Single} (hx : x.parts = .notANumber) (y : Single) :
    (x - y).parts = .notANumber :=
  parts_liftTwo (fun _ _ => rfl) (fun b => by cases b <;> rfl) hx y

theorem notANumber_mul {x : Single} (hx : x.parts = .notANumber) (y : Single) :
    (x * y).parts = .notANumber :=
  parts_liftTwo (fun _ _ => rfl) (fun b => by cases b <;> rfl) hx y

theorem notANumber_div {x : Single} (hx : x.parts = .notANumber) (y : Single) :
    (x / y).parts = .notANumber :=
  parts_liftTwo (fun _ _ => rfl) (fun b => by cases b <;> rfl) hx y

theorem notANumber_floor {x : Single} (hx : x.parts = .notANumber) :
    x.floor.parts = .notANumber := by
  have hzero : (x.value == 0) = false := by
    change UnpackedFloat.beq x.value.toModel.unpack _ = false
    rw [unpack_value, hx]
    rfl
  have hsmall : ¬ x.value.abs < wholeFrom := by
    change ¬ decide (UnpackedFloat.lt x.value.abs.toModel.unpack _ = true) = true
    have habs : x.value.abs.toModel = .pack (UnpackedFloat.abs x.value.toModel.unpack) := rfl
    rw [habs, unpack_value, hx]
    exact Bool.false_ne_true
  have hfloor : floorValue x.value = x.value := by
    simp [floorValue, hzero, hsmall]
  refine parts_lift hx ?_
  rw [hfloor, unpack_value, hx]

end Single

end ParticleDynamics
