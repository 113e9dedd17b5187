/-!
# Decimal literals

A decimal literal is a number as it is written: a sign, whole digits, digits after the point, and
an exponent. `Literal.text` writes one, `Literal.read` reads one from the front of a text.

The grammar is strict. There is at least one whole digit and no superfluous zero in front, a point
is followed by a digit, an exponent has a digit, and nothing else is allowed in between. Digits in
excess of any precision are kept, so a literal has an exact value.
-/

namespace ParticleDynamics

/-- A decimal digit. -/
abbrev Digit : Type := Fin 10

namespace Digit

/-- The digit of zero. -/
def zero : Digit := ⟨0, by decide⟩

/-- The character of a digit. -/
def char (d : Digit) : Char := Char.ofNat (48 + d.val)

/-- The digit of a character. -/
def ofChar? (c : Char) : Option Digit :=
  if h : 48 ≤ c.toNat ∧ c.toNat < 58 then some ⟨c.toNat - 48, by omega⟩ else none

/-- A digit is read back from its character. -/
@[simp] theorem ofChar?_char (d : Digit) : ofChar? d.char = some d := by
  revert d
  decide

/-- The number that a list of digits stands for, the most significant first. -/
def toNat (digits : List Digit) : Nat := digits.foldl (fun n d => 10 * n + d.val) 0

/-- The digits of a number, the most significant first; zero has one. -/
def ofNat (n : Nat) : List Digit :=
  if n < 10 then [Fin.ofNat 10 n] else ofNat (n / 10) ++ [Fin.ofNat 10 (n % 10)]
termination_by n
decreasing_by omega

/-- The digits of a number stand for it. -/
@[simp] theorem toNat_ofNat (n : Nat) : toNat (ofNat n) = n := by
  fun_induction ofNat n with
  | case1 n h => simp [toNat, Fin.ofNat, Nat.mod_eq_of_lt h]
  | case2 n h ih =>
    simp only [toNat, List.foldl_append, List.foldl_cons, List.foldl_nil] at ih ⊢
    rw [ih]
    simp only [Fin.ofNat]
    omega

/-- The text of a list of digits. -/
def text (digits : List Digit) : List Char := digits.map char

/-- The digits at the front of a text, and what follows them. -/
def span : List Char → List Digit × List Char
  | [] => ([], [])
  | c :: rest =>
    match ofChar? c with
    | some d =>
      let (digits, rest') := span rest
      (d :: digits, rest')
    | none => ([], c :: rest)

/-- Digits are read back up to the first character that is none. -/
theorem span_text_append (digits : List Digit) {rest : List Char}
    (h : ∀ c ∈ rest.head?, ofChar? c = none) :
    span (text digits ++ rest) = (digits, rest) := by
  induction digits with
  | nil =>
    cases rest with
    | nil => rfl
    | cons c rest =>
      have hc : ofChar? c = none := h c rfl
      simp [text, span, hc]
  | cons d digits ih =>
    simp only [text, List.map_cons, List.cons_append] at ih ⊢
    simp [span, ih]

end Digit

/-- A number as it is written. -/
structure Literal where
  /-- whether there is a minus sign -/
  negative : Bool
  /-- the digits before the point -/
  whole : List Digit
  /-- the digits after the point; without any there is no point -/
  fraction : List Digit := []
  /-- the exponent, if there is one -/
  exponent : Option Int := none
deriving DecidableEq, Repr

namespace Literal

/-- Whether the literal has neither a point nor an exponent. -/
def isWhole (l : Literal) : Bool := l.fraction.isEmpty && l.exponent.isNone

/-- All digits as one number. -/
def significand (l : Literal) : Nat := Digit.toNat (l.whole ++ l.fraction)

/-- The power of ten by which the significand is scaled. -/
def scale (l : Literal) : Int := l.exponent.getD 0 - Int.ofNat l.fraction.length

/-! ### Writing -/

/-- The text of an exponent. A plus sign is written when `plus` asks for it. -/
def exponentText (plus : Bool) (exponent : Int) : List Char :=
  let sign := if exponent < 0 then ['-'] else if plus then ['+'] else []
  'e' :: sign ++ Digit.text (Digit.ofNat exponent.natAbs)

/-- The characters of a literal. -/
def chars (plus : Bool) (l : Literal) : List Char :=
  (if l.negative then ['-'] else []) ++ Digit.text l.whole ++
    (if l.fraction.isEmpty then [] else '.' :: Digit.text l.fraction) ++
    (match l.exponent with
      | some exponent => exponentText plus exponent
      | none => [])

/-- The text of a literal. A plus sign is written before an exponent when `plus` asks for it. -/
def text (plus : Bool) (l : Literal) : String := String.ofList (l.chars plus)

/-! ### Reading -/

/-- A minus sign at the front of a text, if there is one, and what follows. -/
def readSign : List Char → Bool × List Char
  | '-' :: rest => (true, rest)
  | rest => (false, rest)

/-- The whole digits at the front of a text. A zero stands alone. -/
def readWhole (input : List Char) : Option (List Digit × List Char) :=
  match Digit.span input with
  | ([], _) => none
  | (0 :: _ :: _, _) => none
  | (digits, rest) => some (digits, rest)

/-- A point with its digits at the front of a text, if there is a point. -/
def readFraction : List Char → Option (List Digit × List Char)
  | '.' :: rest =>
    match Digit.span rest with
    | ([], _) => none
    | (digits, rest') => some (digits, rest')
  | rest => some ([], rest)

/-- The digits of an exponent, given its sign. -/
def readExponentDigits (negative : Bool) (input : List Char) : Option (Option Int × List Char) :=
  match Digit.span input with
  | ([], _) => none
  | (digits, rest) =>
    let magnitude := Int.ofNat (Digit.toNat digits)
    some (some (if negative then -magnitude else magnitude), rest)

/-- An exponent at the front of a text, if there is one. -/
def readExponent : List Char → Option (Option Int × List Char)
  | c :: rest =>
    if c = 'e' ∨ c = 'E' then
      match rest with
      | '-' :: rest' => readExponentDigits true rest'
      | '+' :: rest' => readExponentDigits false rest'
      | rest' => readExponentDigits false rest'
    else
      some (none, c :: rest)
  | [] => some (none, [])

/-- A literal at the front of a text, and what follows it. -/
def read (input : List Char) : Option (Literal × List Char) := do
  let (negative, afterSign) := readSign input
  let (whole, afterWhole) ← readWhole afterSign
  let (fraction, afterFraction) ← readFraction afterWhole
  let (exponent, rest) ← readExponent afterFraction
  return (⟨negative, whole, fraction, exponent⟩, rest)

/-- The literal that is the whole of a text. -/
def ofText? (text : String) : Option Literal :=
  match read text.toList with
  | some (l, []) => some l
  | _ => none

end Literal

end ParticleDynamics
