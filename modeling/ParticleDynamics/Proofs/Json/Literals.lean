import ParticleDynamics.Json.Codec
import ParticleDynamics.Proofs.Json.Numbers

/-!
# Literals survive writing and reading

A literal without a superfluous zero in front (`Literal.Strict`) is read back from its text,
whatever follows, as long as that does not continue it (`Literal.read_chars`). The literals of
numbers and of words are of this kind.
-/

namespace ParticleDynamics

namespace Digit

/-- A digit is none of the characters that a literal has around its digits. -/
theorem char_ne (d : Digit) : d.char ≠ '-' ∧ d.char ≠ '.' := by
  revert d
  decide

theorem head_ofNat {n : Nat} (h : 0 < n) (rest : List Digit) : ofNat n ≠ zero :: rest := by
  fun_induction ofNat n generalizing rest with
  | case1 n hlt =>
    intro heq
    have hzero : Fin.ofNat 10 n = zero := (List.cons.inj heq).1
    have := congrArg Fin.val hzero
    simp only [Fin.ofNat, Nat.mod_eq_of_lt hlt, zero] at this
    omega
  | case2 n hge ih =>
    intro heq
    rcases hdigits : ofNat (n / 10) with _ | ⟨d, digits⟩
    · exact ofNat_ne_nil _ hdigits
    · rw [hdigits, List.cons_append] at heq
      obtain rfl := (List.cons.inj heq).1
      exact ih (by omega) digits hdigits

end Digit

namespace Literal

/-- There is a digit before the point, and no zero in front of others. -/
structure Strict (l : Literal) : Prop where
  whole_ne_nil : l.whole ≠ []
  no_zero : ∀ d rest, l.whole ≠ Digit.zero :: d :: rest

/-! ## The literals that are written -/

theorem strict_nat (n : Nat) : Strict ⟨false, Digit.ofNat n, [], none⟩ := by
  refine ⟨Digit.ofNat_ne_nil n, fun d rest heq => ?_⟩
  rcases Nat.eq_zero_or_pos n with rfl | hpos
  · have hzero : Digit.ofNat 0 = [Digit.zero] := by
      rw [Digit.ofNat]
      rfl
    rw [hzero] at heq
    cases heq
  · exact Digit.head_ofNat hpos _ heq

theorem strict_place (style : DecimalStyle) (negative : Bool) {n : Nat} (h : 0 < n)
    (exponent : Int) : Strict (style.place negative (Digit.ofNat n) exponent) := by
  have hhead := Digit.head_ofNat h
  have hne := Digit.ofNat_ne_nil n
  generalize Digit.ofNat n = digits at *
  rcases digits with _ | ⟨d, digits⟩
  · exact absurd rfl hne
  · unfold DecimalStyle.place
    split
    · exact ⟨nofun, nofun⟩
    · split
      · exact ⟨nofun, nofun⟩
      · refine ⟨nofun, fun d' rest heq => ?_⟩
        obtain rfl : d = Digit.zero := (List.cons.inj heq).1
        exact hhead digits rfl

/-- The literals of numbers are strict. -/
theorem strict_of_literal? {x : Single} {l : Literal} (h : Json.style.literal? x = some l) :
    Strict l := by
  unfold DecimalStyle.literal? at h
  split at h
  next =>
    obtain rfl := Option.some.inj h
    exact ⟨nofun, nofun⟩
  next m q hzero hkind =>
    rcases hdecimal : Shortest.decimal m q with ⟨n, k⟩
    have hreadable := Shortest.decimal_outcome (Nat.pos_of_ne_zero hzero)
      (Single.holds_of_kind hkind) hdecimal
    rw [hdecimal] at h
    obtain rfl := Option.some.inj h
    exact strict_place _ _ hreadable.pos _
  next => cases h

/-! ## Reading -/

/-- What follows does not continue a literal. -/
def Stops (rest : List Char) : Prop :=
  ∀ c ∈ rest.head?, Digit.ofChar? c = none ∧ c ≠ '.' ∧ c ≠ 'e' ∧ c ≠ 'E'

/-- The text of the digits after the point, with the point. -/
def fractionText (l : Literal) : List Char :=
  if l.fraction.isEmpty then [] else '.' :: Digit.text l.fraction

/-- The text of the exponent, if there is one. -/
def exponentPart (l : Literal) : List Char :=
  match l.exponent with
  | some exponent => exponentText true exponent
  | none => []

theorem readExponentDigits_eq (negative : Bool) (n : Nat) {rest : List Char} (h : Stops rest) :
    readExponentDigits negative (Digit.text (Digit.ofNat n) ++ rest) =
      some (some (if negative then -(n : Int) else n), rest) := by
  have hne := Digit.ofNat_ne_nil n
  rw [readExponentDigits, Digit.span_text_append _ fun c hc => (h c hc).1]
  split
  next heq => exact absurd (Prod.mk.inj heq).1 hne
  next digits rest' _ heq =>
    obtain ⟨rfl, rfl⟩ := Prod.mk.inj heq
    rw [Digit.toNat_ofNat, Int.ofNat_eq_natCast]

/-- The exponent is read back. -/
theorem readExponent_eq (l : Literal) {rest : List Char} (h : Stops rest) :
    readExponent (l.exponentPart ++ rest) = some (l.exponent, rest) := by
  unfold exponentPart
  split
  next exponent hexponent =>
    rw [exponentText, hexponent]
    by_cases hneg : exponent < 0
    · rw [if_pos hneg]
      refine (readExponentDigits_eq true exponent.natAbs h).trans ?_
      rw [if_pos rfl, Int.ofNat_natAbs_of_nonpos hneg.le, neg_neg]
    · rw [if_neg hneg, if_pos rfl]
      refine (readExponentDigits_eq false exponent.natAbs h).trans ?_
      rw [if_neg (by decide), Int.natAbs_of_nonneg (not_lt.1 hneg)]
  next hexponent =>
    rw [hexponent, List.nil_append]
    cases rest with
    | nil => rfl
    | cons c rest =>
      obtain ⟨-, -, he, hE⟩ := h c rfl
      have hne : ¬(c = 'e' ∨ c = 'E') := not_or.2 ⟨he, hE⟩
      unfold readExponent
      exact if_neg hne

/-- The digits after the point are read back. -/
theorem readFraction_eq (l : Literal) {rest : List Char}
    (h : ∀ c ∈ rest.head?, Digit.ofChar? c = none ∧ c ≠ '.') :
    readFraction (l.fractionText ++ rest) = some (l.fraction, rest) := by
  unfold fractionText
  split
  next hempty =>
    rw [List.isEmpty_iff.1 hempty, List.nil_append]
    cases rest with
    | nil => rfl
    | cons c rest =>
      have hne := (h c rfl).2
      unfold readFraction
      split
      next heq => exact absurd (List.cons.inj heq).1 hne
      next => rfl
  next hne =>
    rw [List.cons_append, readFraction, Digit.span_text_append _ fun c hc => (h c hc).1]
    split
    next heq => exact absurd (Prod.mk.inj heq).1 (by simpa using hne)
    next digits rest' _ heq =>
      obtain ⟨rfl, rfl⟩ := Prod.mk.inj heq
      rfl

theorem head_exponentPart (l : Literal) {rest : List Char} (h : Stops rest) :
    ∀ c ∈ (l.exponentPart ++ rest).head?, Digit.ofChar? c = none ∧ c ≠ '.' := by
  intro c hc
  unfold exponentPart at hc
  split at hc
  next =>
    obtain rfl : 'e' = c := Option.some.inj hc
    decide
  next => exact ⟨(h c hc).1, (h c hc).2.1⟩

theorem head_fractionText (l : Literal) {rest : List Char} (h : Stops rest) :
    ∀ c ∈ (l.fractionText ++ (l.exponentPart ++ rest)).head?, Digit.ofChar? c = none := by
  intro c hc
  unfold fractionText at hc
  split at hc
  next => exact (head_exponentPart l h c hc).1
  next =>
    obtain rfl : '.' = c := Option.some.inj hc
    decide

/-- The digits before the point are read back. -/
theorem readWhole_eq {l : Literal} (h : Strict l) {rest : List Char}
    (hrest : ∀ c ∈ rest.head?, Digit.ofChar? c = none) :
    readWhole (Digit.text l.whole ++ rest) = some (l.whole, rest) := by
  rw [readWhole, Digit.span_text_append _ hrest]
  split
  next heq => exact absurd (Prod.mk.inj heq).1 h.whole_ne_nil
  next d digits _ heq => exact absurd (Prod.mk.inj heq).1 (h.no_zero _ _)
  next digits rest' _ _ heq =>
    obtain ⟨rfl, rfl⟩ := Prod.mk.inj heq
    rfl

/-- The sign is read back. -/
theorem readSign_eq {l : Literal} (h : l.whole ≠ []) (rest : List Char) :
    readSign ((if l.negative then ['-'] else []) ++ (Digit.text l.whole ++ rest)) =
      (l.negative, Digit.text l.whole ++ rest) := by
  cases l.negative with
  | true => rfl
  | false =>
    generalize l.whole = whole at *
    rcases whole with _ | ⟨d, digits⟩
    · exact absurd rfl h
    · have hne := (Digit.char_ne d).1
      simp only [Bool.false_eq_true, if_false, List.nil_append, Digit.text, List.map_cons,
        List.cons_append]
      unfold readSign
      split
      next heq => exact absurd (List.cons.inj heq).1 hne
      next => rfl

/-- **A strict literal is read back from its text.** What comes after it must not begin like a
continuation of the number, and this is what stopping means. -/
theorem read_chars {l : Literal} (h : Strict l) {rest : List Char} (hrest : Stops rest) :
    read (l.chars true ++ rest) = some (l, rest) := by
  have hchars : l.chars true ++ rest = (if l.negative then ['-'] else []) ++
      (Digit.text l.whole ++ (l.fractionText ++ (l.exponentPart ++ rest))) := by
    simp only [chars, List.append_assoc]
    rfl
  simp only [hchars, read, readSign_eq h.whole_ne_nil, readWhole_eq h (head_fractionText l hrest),
    readFraction_eq l (head_exponentPart l hrest), readExponent_eq l hrest, Option.bind_eq_bind,
    Option.bind_some, Option.pure_def]

end Literal

end ParticleDynamics
