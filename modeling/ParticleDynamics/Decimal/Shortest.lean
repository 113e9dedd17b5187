import ParticleDynamics.Decimal.Nearest

/-!
# Shortest decimals

A number of single precision is written with the fewest digits that still identify it. The reals
that round to the number form an interval; its ends belong to it when the significand is even,
because ties go to the even one. Decimals with a given last place form a grid. Going from coarse
grids to fine ones, the first grid that has a point in the interval gives the answer: of the two
grid points around the number those inside count, the nearer one wins, and a tie goes to the even
one.

How digits and exponent are laid out as a literal is the affair of a `DecimalStyle`: which exponents
are written out in full, and whether an exponent carries a plus sign. A decimal that is written out
always has a digit after the point.
-/

namespace ParticleDynamics

namespace Shortest

/-- The interval of reals that round to a number, in units of an arbitrary common scale. -/
structure Interval where
  /-- the lower end -/
  lo : Nat
  /-- the number itself -/
  value : Nat
  /-- the upper end -/
  hi : Nat
  /-- one, in the same units -/
  unit : Nat
  /-- whether the ends belong to the interval -/
  closed : Bool

namespace Interval

/-- The interval of the positive number `m * 2 ^ q`. The gap below a power of two is half as wide
as the gap above it, except at the least exponent. -/
def ofParts (m : Nat) (q : Int) : Interval :=
  let up := Nat.pow 2 (q - 2).toNat
  let below := if m = Single.leadingBit ∧ -149 < q then 1 else 2
  { lo := (4 * m - below) * up
    value := 4 * m * up
    hi := (4 * m + 2) * up
    unit := Nat.pow 2 (2 - q).toNat
    closed := m % 2 = 0 }

/-- The same interval measured in units of the last place `10 ^ place`. -/
def atPlace (i : Interval) (place : Int) : Interval :=
  let up := Nat.pow 10 (-place).toNat
  { i with
    lo := i.lo * up
    value := i.value * up
    hi := i.hi * up
    unit := i.unit * Nat.pow 10 place.toNat }

/-- Whether a multiple of the unit lies in the interval. -/
def contains (i : Interval) (n : Nat) : Bool :=
  if i.closed then decide (i.lo ≤ n * i.unit ∧ n * i.unit ≤ i.hi)
  else decide (i.lo < n * i.unit ∧ n * i.unit < i.hi)

/-- The multiple of the unit that represents the interval: the nearest one to the value among its
two neighbours that lie inside, the even one when both are equally near. -/
def pick (i : Interval) : Option Nat :=
  let below := i.value / i.unit
  match 0 < below && i.contains below, i.contains (below + 1) with
  | true, true => some (divideToEven i.value i.unit)
  | true, false => some below
  | false, true => some (below + 1)
  | false, false => none

end Interval

/-- The last place at which the search starts, above every number of single precision. -/
def coarsest : Int := 39

/-- The last place that identifies every number of single precision. -/
def finest : Int := -55

/-- The first place from `place` on, of `count` many, whose grid has a point in the interval,
together with that point. -/
def search (i : Interval) : (count : Nat) → (place : Int) → Option (Nat × Int)
  | 0, _ => none
  | count + 1, place =>
    match (i.atPlace place).pick with
    | some n => some (n, place)
    | none => search i count (place - 1)

/-- The shortest decimal of the positive number `m * 2 ^ q`, as a whole number and the place of its
last digit. -/
def decimal (m : Nat) (q : Int) : Nat × Int :=
  (search (Interval.ofParts m q) (coarsest - finest).toNat coarsest).getD (0, 0)

end Shortest

/-- How the digits of a decimal are laid out. -/
structure DecimalStyle where
  /-- the least exponent that is written out -/
  least : Int
  /-- the greatest exponent that is written out -/
  most : Int
  /-- whether a positive exponent carries a plus sign -/
  plus : Bool

namespace DecimalStyle

/-- The literal with the given digits, of which the first has the place `exponent`. -/
def place (style : DecimalStyle) (negative : Bool) (digits : List Digit) (exponent : Int) :
    Literal :=
  if exponent < style.least ∨ style.most < exponent then
    ⟨negative, digits.take 1, digits.drop 1, some exponent⟩
  else if exponent < 0 then
    ⟨negative, [Digit.zero], List.replicate (-exponent - 1).toNat Digit.zero ++ digits, none⟩
  else
    let before := exponent.toNat + 1
    let whole := digits.take before ++ List.replicate (before - digits.length) Digit.zero
    let fraction := digits.drop before
    ⟨negative, whole, if fraction.isEmpty then [Digit.zero] else fraction, none⟩

/-- The literal of a number; nothing for one that is infinite or not a number. -/
def literal? (style : DecimalStyle) (x : Single) : Option Literal :=
  match Single.kind x with
  | .finite 0 _ => some ⟨Single.isNegative x, [Digit.zero], [Digit.zero], none⟩
  | .finite m q =>
    let (n, last) := Shortest.decimal m q
    let digits := Digit.ofNat n
    some (style.place (Single.isNegative x) digits (last + Int.ofNat digits.length - 1))
  | _ => none

/-- The text of a number; `other` for one that is infinite or not a number. -/
def text (style : DecimalStyle) (other : String) (x : Single) : String :=
  match style.literal? x with
  | some l => l.text style.plus
  | none => other

end DecimalStyle

end ParticleDynamics
