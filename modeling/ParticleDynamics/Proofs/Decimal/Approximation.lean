import Mathlib.Data.Nat.GCD.Basic
import Mathlib.Tactic.Linarith
import Mathlib.Tactic.Positivity
import Mathlib.Tactic.Ring

/-!
# Decimals close to binary numbers

How close can `n * 10 ^ k` come to `m * 2 ^ q` without being equal to it? With the powers put into a
fraction `a / b` the question is how close `m / n` comes to it, and a good approximation `p / r` of
`a / b` answers it: when `n` and `r` are small, a fraction `m / n` that is close enough is `p / r`
itself (`Shortest.eq_of_near`).

The approximations are convergents of the continued fraction of `a / b`. They are computed
(`Shortest.convergent`), and whether one of them is good enough is decided for each power of ten in
the range of single precision (`Shortest.separated`). The outcome is
`Shortest.eq_or_exception_of_near`: an odd multiple of a power of two with at most 25 bits is never
within one part in `2 ^ 51` of a decimal with a significand below `2 ^ 24` unless both are equal,
with a single exception.
-/

namespace ParticleDynamics

namespace Shortest

/-! ## Approximations of a fraction -/

/-- How far `r * a` is from `p * b`. -/
def error (a b p r : Nat) : Nat := ((r * a : Int) - p * b).natAbs

/-- The fraction `p / r` decides which fractions with a denominator below `2 ^ 24` are within one
part in `2 ^ 51` of `a / b`. -/
def Certifies (a b p r : Nat) : Prop := 2 ^ 24 * (2 ^ 51 * error a b p r + r * a) ≤ 2 ^ 51 * b

instance (a b p r : Nat) : Decidable (Certifies a b p r) := inferInstanceAs (Decidable (_ ≤ _))

theorem cross_eq (a b p r m n : Int) :
    b * (n * p - m * r) = r * (n * a - m * b) - n * (r * a - p * b) := by
  ring

/-- Two fractions that are close to a third one are close to each other. -/
theorem mul_cross_le (a b p r m n : Nat) :
    b * ((n * p - m * r : Int)).natAbs ≤ r * error a b m n + n * error a b p r := by
  have herror : ((b * ((n * p - m * r : Int)).natAbs : Nat) : Int) ≤
      r * error a b m n + n * error a b p r := by
    rw [Nat.cast_mul, Int.natCast_natAbs, ← abs_of_nonneg (Int.natCast_nonneg b), ← abs_mul,
      cross_eq a]
    refine (abs_sub _ _).trans (le_of_eq ?_)
    rw [abs_mul, abs_mul, error, error, Int.natCast_natAbs, Int.natCast_natAbs,
      abs_of_nonneg (Int.natCast_nonneg r), abs_of_nonneg (Int.natCast_nonneg n)]
  exact_mod_cast herror

/-- Equal fractions are off by as much, each by its denominator. -/
theorem mul_error_eq {a b p r m n : Nat} (h : n * p = m * r) :
    n * error a b p r = r * error a b m n := by
  have heq : (n * p : Int) = m * r := by exact_mod_cast h
  have hcross := cross_eq a b p r m n
  rw [heq, sub_self, mul_zero] at hcross
  rw [error, error, ← Int.natAbs_natCast n, ← Int.natAbs_mul, ← Int.natAbs_natCast r,
    ← Int.natAbs_mul, Int.natAbs_natCast, Int.natAbs_natCast, ← sub_eq_zero.1 hcross.symm]

/-- A fraction near `a / b` equals a certified approximation, which then is near as well. -/
theorem eq_of_near {a b p r n m : Nat} (h : Certifies a b p r) (ha : 0 < a) (hr : 0 < r)
    (hpos : 0 < n) (hlt : n < 2 ^ 24) (hnear : error a b m n * 2 ^ 51 ≤ n * a) :
    n * p = m * r ∧ n * error a b p r = r * error a b m n ∧ error a b p r * 2 ^ 51 ≤ r * a := by
  unfold Certifies at h
  have hsum : b * ((n * p - m * r : Int)).natAbs * 2 ^ 51 <
      2 ^ 24 * (2 ^ 51 * error a b p r + r * a) := by
    calc b * ((n * p - m * r : Int)).natAbs * 2 ^ 51
      _ ≤ (r * error a b m n + n * error a b p r) * 2 ^ 51 :=
        Nat.mul_le_mul_right _ (mul_cross_le a b p r m n)
      _ = r * (error a b m n * 2 ^ 51) + n * (2 ^ 51 * error a b p r) := by ring
      _ ≤ r * (n * a) + n * (2 ^ 51 * error a b p r) :=
        Nat.add_le_add_right (Nat.mul_le_mul_left r hnear) _
      _ = n * (2 ^ 51 * error a b p r + r * a) := by ring
      _ < 2 ^ 24 * (2 ^ 51 * error a b p r + r * a) :=
        Nat.mul_lt_mul_of_pos_right hlt (Nat.add_pos_right _ (Nat.mul_pos hr ha))
  -- fractions with such small denominators are equal or further apart than that
  have hzero : ((n * p - m * r : Int)).natAbs = 0 := by
    by_contra hne
    have hle : b * 1 ≤ b * ((n * p - m * r : Int)).natAbs :=
      Nat.mul_le_mul_left b (Nat.pos_of_ne_zero hne)
    have := (Nat.mul_le_mul_right (2 ^ 51) hle).trans_lt (hsum.trans_le h)
    omega
  have heq : n * p = m * r := by exact_mod_cast sub_eq_zero.1 (Int.natAbs_eq_zero.1 hzero)
  have hsame : n * error a b p r = r * error a b m n := mul_error_eq heq
  refine ⟨heq, hsame, Nat.le_of_mul_le_mul_left ?_ hpos⟩
  calc n * (error a b p r * 2 ^ 51)
    _ = r * (error a b m n * 2 ^ 51) := by rw [← mul_assoc, hsame, mul_assoc]
    _ ≤ r * (n * a) := Nat.mul_le_mul_left r hnear
    _ = n * (r * a) := by ring

/-- The first convergent of `a / b` that certifies, if there is one among `fuel` many. `x / y` is
what is left to expand, `p / r` and `p' / r'` are the last two convergents. -/
def convergent (a b : Nat) : (fuel x y p r p' r' : Nat) → Nat × Nat
  | 0, _, _, _, _, p', r' => (p', r')
  | fuel + 1, x, y, p, r, p', r' =>
    if y = 0 ∨ Certifies a b p' r' then (p', r')
    else convergent a b fuel y (x % y) p' r' (x / y * p' + p) (x / y * r' + r)

/-! ## Powers of ten -/

/-- The exponent of the greatest power of two below `10 ^ k`. -/
def exponentBelow (k : Int) : Int :=
  if 0 < k then (Nat.pow 10 k.toNat).log2 else -(Nat.pow 10 (-k).toNat).log2 - 1

/-- The numerator of `10 ^ k / 2 ^ (exponentBelow k - 1)`. -/
def above (k : Int) : Nat := Nat.pow 10 k.toNat * Nat.pow 2 (1 - exponentBelow k).toNat

/-- The denominator of `10 ^ k / 2 ^ (exponentBelow k - 1)`. -/
def below (k : Int) : Nat := Nat.pow 10 (-k).toNat * Nat.pow 2 (exponentBelow k - 1).toNat

/-- A good approximation of `10 ^ k / 2 ^ (exponentBelow k - 1)`. -/
def approximation (k : Int) : Nat × Nat :=
  convergent (above k) (below k) 30 (above k) (below k) 0 1 1 0

/-- What there is to know about a power of ten and its approximation `p / r`. -/
structure Separated (k : Int) (p r : Nat) : Prop where
  certifies : Certifies (above k) (below k) p r
  pos : 0 < r
  coprime : p.Coprime r
  lt : 2 * below k < above k
  le : k = 0 ∧ above k = 4 * below k ∨ 2 ^ 26 * above k + 4 * below k ≤ 4 * 2 ^ 26 * below k
  apart : error (above k) (below k) p r = 0 ∧ -22 ≤ k ∧ k ≤ 22 ∨ 2 ∣ p ∨ 2 ^ 25 ≤ p ∨
    r * above k < error (above k) (below k) p r * 2 ^ 51 ∨ k = -32 ∧ p = 22841339 ∧ r = 7038531

instance (k : Int) (p r : Nat) : Decidable (Separated k p r) :=
  decidable_of_iff
    (Certifies (above k) (below k) p r ∧ 0 < r ∧ p.Coprime r ∧ 2 * below k < above k ∧
      (k = 0 ∧ above k = 4 * below k ∨ 2 ^ 26 * above k + 4 * below k ≤ 4 * 2 ^ 26 * below k) ∧
      (error (above k) (below k) p r = 0 ∧ -22 ≤ k ∧ k ≤ 22 ∨ 2 ∣ p ∨ 2 ^ 25 ≤ p ∨
        r * above k < error (above k) (below k) p r * 2 ^ 51 ∨
          k = -32 ∧ p = 22841339 ∧ r = 7038531))
    ⟨fun ⟨h, h', h'', hlt, hle, happart⟩ => ⟨h, h', h'', hlt, hle, happart⟩,
      fun h => ⟨h.certifies, h.pos, h.coprime, h.lt, h.le, h.apart⟩⟩

/-- The powers of ten in the range of single precision are separated. -/
theorem separated {k : Int} (hlo : -45 ≤ k) (hhi : k ≤ 39) :
    Separated k (approximation k).1 (approximation k).2 := by
  have key : ∀ i < 85, Separated ((i : Nat) - 45 : Int) (approximation (i - 45)).1
      (approximation (i - 45)).2 := by decide +kernel
  have := key (k + 45).toNat (by omega)
  rwa [show ((k + 45).toNat : Int) - 45 = k by omega] at this

/-- **A decimal near an odd multiple of a power of two is equal to it**, with one exception. There
are too many decimals to try them all. For each exponent a convergent is tried instead, which is the
only fraction with a small denominator that comes so near. -/
theorem eq_or_exception_of_near {k : Int} (hlo : -45 ≤ k) (hhi : k ≤ 39) {n m : Nat} (hpos : 0 < n)
    (hn : n < 2 ^ 24) (hodd : m % 2 = 1) (hm : m < 2 ^ 25)
    (hnear : error (above k) (below k) m n * 2 ^ 51 ≤ n * above k) :
    error (above k) (below k) m n = 0 ∧ -22 ≤ k ∧ k ≤ 22 ∨
      k = -32 ∧ n = 7038531 ∧ m = 22841339 := by
  obtain ⟨hcertifies, hr, hcoprime, hlt, -, hapart⟩ := separated hlo hhi
  generalize approximation k = approximation at *
  generalize above k = a at *
  generalize below k = b at *
  obtain ⟨p, r⟩ := approximation
  obtain ⟨hmul, herror, hclose⟩ :=
    eq_of_near hcertifies (Nat.zero_lt_of_lt hlt) hr hpos hn hnear
  obtain ⟨j, rfl⟩ : p ∣ m := hcoprime.dvd_of_dvd_mul_right ⟨n, hmul.symm.trans (Nat.mul_comm n p)⟩
  have hj : 0 < j := by
    rcases Nat.eq_zero_or_pos j with rfl | hj
    · simp at hodd
    · exact hj
  -- the convergent itself is exact, has an even numerator, is too large or is not near, but for one
  rcases hapart with ⟨hexact, hrange⟩ | heven | hlarge | hfar | ⟨rfl, rfl, rfl⟩
  · rw [hexact, mul_zero] at herror
    exact .inl ⟨(Nat.mul_eq_zero.1 herror.symm).resolve_left hr.ne', hrange⟩
  · have := Nat.odd_mul.1 (Nat.odd_iff.2 hodd)
    exact absurd this.1 (Nat.not_odd_iff_even.2 (even_iff_two_dvd.2 heven))
  · exact absurd (Nat.le_mul_of_pos_right p hj) (by omega)
  · exact absurd hclose (not_le.2 hfar)
  · have hone : j = 1 := by
      clear * - hm hj
      omega
    subst hone
    refine .inr ⟨rfl, ?_, Nat.mul_one _⟩
    clear * - hmul
    omega

end Shortest

end ParticleDynamics
