import ParticleDynamics.Decimal.Nearest

/-!
# Fixed places

A number of single precision written with a fixed number of digits after the point. The exact value
is rounded once, a tie to the even last digit. The sign is written whenever its bit is set, also in
front of zero.
-/

namespace ParticleDynamics

namespace Fixed

/-- The magnitude `m * 2 ^ q` in units of the last of `places` digits after the point. -/
def units (places : Nat) (m : Nat) (q : Int) : Nat :=
  divideToEven (m * Nat.pow 2 q.toNat * Nat.pow 10 places) (Nat.pow 2 (-q).toNat)

/-- The literal of a whole number of units. -/
def literal (places : Nat) (negative : Bool) (n : Nat) : Literal :=
  let digits := Digit.ofNat n
  let padded := List.replicate (places + 1 - digits.length) Digit.zero ++ digits
  let before := padded.length - places
  ⟨negative, padded.take before, padded.drop before, none⟩

/-- The text of a number with a fixed number of digits after the point. -/
def text (places : Nat) (x : Single) : String :=
  let negative := Single.isNegative x
  match Single.kind x with
  | .finite m q => (literal places negative (units places m q)).text false
  | .infinite => if negative then "-inf" else "inf"
  | .notANumber => "NaN"

end Fixed

end ParticleDynamics
