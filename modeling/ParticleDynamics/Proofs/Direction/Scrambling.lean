import Mathlib.Algebra.Group.Units.Equiv
import Mathlib.Data.UInt
import ParticleDynamics.Direction

/-!
# Scrambling loses nothing

The hash behind the directions of coincident particles permutes the words (`scramble_permutes`), as
each of its steps can be undone. Pairs of indices are scrambled alike only if they have one key
before the hash, and the pairs of one particle with any two others, in the same order, never are
(`scramblePair_right_injective`, `scramblePair_left_injective`).

The linear step and the multiplication have odd factors, which are units. The other two steps add to
a word a copy of it that is shifted to the right. Such a step is undone by more of the same: doing
it twice is doing it once over twice the distance (`xorShift_xorShift`), and a shift over the whole
word leaves no copy. In the middle of the hash the word itself selects the distance, by its upper
four bits. The distance is at least four, so these bits stay as they are and go on to select the one
distance, and after eight rounds the word is back (`iterate_selfShift_eight`).
-/

namespace ParticleDynamics

open Function

/-! ## Adding a shifted copy -/

/-- A word and its copy shifted to the right, added bit by bit without carry. -/
def xorShift (distance : Nat) (word : UInt32) : UInt32 :=
  ⟨(word.toBitVec >>> distance) ^^^ word.toBitVec⟩

/-- Two rounds are one round over twice the distance, as the copies of the copy cancel. -/
theorem xorShift_xorShift (distance : Nat) (word : UInt32) :
    xorShift distance (xorShift distance word) = xorShift (distance + distance) word := by
  apply UInt32.toBitVec_inj.1
  simp only [xorShift, BitVec.ushiftRight_xor_distrib, BitVec.shiftRight_add]
  rw [BitVec.xor_assoc, ← BitVec.xor_assoc (word.toBitVec >>> distance), BitVec.xor_self,
    BitVec.zero_xor]

/-- Nothing is left of a copy that is shifted over the whole word. -/
theorem xorShift_of_le {distance : Nat} (h : 32 ≤ distance) (word : UInt32) :
    xorShift distance word = word := by
  apply UInt32.toBitVec_inj.1
  rw [xorShift, BitVec.ushiftRight_eq_zero h, BitVec.zero_xor]

/-- Rounds in the number of a power of two are one round over so many times the distance. -/
theorem iterate_xorShift (distance k : Nat) (word : UInt32) :
    (xorShift distance)^[2 ^ k] word = xorShift (2 ^ k * distance) word := by
  induction k generalizing word with
  | zero => rw [pow_zero, one_mul, iterate_one]
  | succ k ih => rw [pow_succ, mul_two, iterate_add_apply, ih, ih, xorShift_xorShift, ← add_mul]

/-- Over half the word or more, the second round undoes the first one. -/
theorem xorShift_involutive {distance : Nat} (h : 16 ≤ distance) : Involutive (xorShift distance) :=
  fun word => (xorShift_xorShift distance word).trans (xorShift_of_le (by omega) word)

/-! ## A distance that the word selects -/

/-- The distance that the upper four bits of a word select. -/
def leap (word : UInt32) : Nat := (word.toBitVec >>> 28).toNat + 4

theorem four_le_leap (word : UInt32) : 4 ≤ leap word := Nat.le_add_left 4 _

theorem leap_lt (word : UInt32) : leap word < 32 := by
  have hword := word.toBitVec.isLt
  rw [leap, BitVec.toNat_ushiftRight, Nat.shiftRight_eq_div_pow]
  omega

/-- Adding four to the upper four bits does not wrap. -/
theorem toNat_shiftRight_add (word : UInt32) : ((word >>> 28) + 4).toNat = leap word := by
  have hshift : (word >>> 28).toNat = (word.toBitVec >>> 28).toNat := by
    rw [UInt32.toNat_shiftRight, BitVec.toNat_ushiftRight]
    rfl
  rw [UInt32.toNat_add, hshift]
  exact Nat.mod_eq_of_lt ((leap_lt word).trans (by decide))

/-- The middle step of the hash: the word selects the distance. -/
def selfShift (word : UInt32) : UInt32 := xorShift (leap word) word

/-- A shift by a word is over the distance modulo 32, which the selected one is below. -/
theorem selfShift_eq (word : UInt32) :
    selfShift word = (word >>> ((word >>> 28) + 4)) ^^^ word := by
  have hleap : (((word >>> 28) + 4).toBitVec % 32).toNat = leap word :=
    (congrArg (· % 32) (toNat_shiftRight_add word)).trans (Nat.mod_eq_of_lt (leap_lt word))
  apply UInt32.toBitVec_inj.1
  rw [UInt32.toBitVec_xor, UInt32.toBitVec_shiftRight, BitVec.ushiftRight_eq', hleap]
  rfl

/-- A copy that is shifted by four bits or more leaves the selected distance as it is. -/
theorem leap_xorShift {distance : Nat} (h : 4 ≤ distance) (word : UInt32) :
    leap (xorShift distance word) = leap word := by
  -- of the copy, nothing is within the upper four bits
  have hcopy : word.toBitVec >>> (distance + 28) = 0#32 := BitVec.ushiftRight_eq_zero (by omega)
  rw [leap, xorShift, BitVec.ushiftRight_xor_distrib, ← BitVec.shiftRight_add, hcopy,
    BitVec.zero_xor, leap]

/-- All rounds are over the distance that the first one selects. -/
theorem iterate_selfShift (count : Nat) (word : UInt32) :
    selfShift^[count] word = (xorShift (leap word))^[count] word := by
  induction count generalizing word with
  | zero => rfl
  | succ count ih =>
    -- the later rounds start from another word, which selects the same distance
    have hleap : leap (selfShift word) = leap word := leap_xorShift (four_le_leap word) word
    rw [iterate_succ_apply, iterate_succ_apply, ih, hleap, selfShift]

/-- **Eight rounds bring a word back**, whichever distance it selects. Doubling the number of rounds
doubles the distance of the shift, and eight rounds shift by 32 bits or more, which leaves nothing
of the copy. -/
theorem iterate_selfShift_eight (word : UInt32) : selfShift^[8] word = word := by
  have hfar : 32 ≤ 2 ^ 3 * leap word := Nat.mul_le_mul_left 8 (four_le_leap word)
  calc selfShift^[8] word = (xorShift (leap word))^[2 ^ 3] word := iterate_selfShift 8 word
    _ = xorShift (2 ^ 3 * leap word) word := iterate_xorShift (leap word) 3 word
    _ = word := xorShift_of_le hfar word

/-- The middle step, undone by seven more rounds. -/
def selfShifting : Equiv.Perm UInt32 where
  toFun := selfShift
  invFun := selfShift^[7]
  left_inv := iterate_selfShift_eight
  right_inv word := by
    rw [← iterate_succ_apply' selfShift]
    exact iterate_selfShift_eight word

/-! ## The hash as a permutation -/

/-- The factor of the linear step. -/
def stepFactor : UInt32ˣ := ⟨747796405, 3425435293, by decide, by decide⟩

/-- The factor of the multiplication. -/
def mixFactor : UInt32ˣ := ⟨277803737, 2897767785, by decide, by decide⟩

/-- The steps of the hash, each with the one that undoes it. -/
def scrambling : Equiv.Perm UInt32 :=
  stepFactor.mulRight
    |>.trans (Equiv.addRight 2891336453)
    |>.trans selfShifting
    |>.trans mixFactor.mulRight
    |>.trans (xorShift_involutive (by decide : 16 ≤ 22)).toPerm

theorem coe_scrambling : ⇑scrambling = scramble := by
  funext value
  calc scrambling value
      = xorShift 22 (selfShift (value * 747796405 + 2891336453) * 277803737) := rfl
    _ = scramble value := by
      rw [selfShift_eq]
      rfl

/-! ## Pairs -/

/-- The key of an ordered pair of indices: the word that `scramblePair` scrambles. -/
def pairKey (a b : UInt32) : UInt32 := (a * 73856093) ^^^ (b * 19349663)

theorem scramblePair_eq (a b : UInt32) : scramblePair a b = scramble (pairKey a b) := rfl

theorem scramblePair_inj {a b c d : UInt32} :
    scramblePair a b = scramblePair c d ↔ pairKey a b = pairKey c d := by
  rw [scramblePair_eq, scramblePair_eq, ← coe_scrambling, scrambling.apply_eq_iff_eq]

/-- **The hash is a permutation of the words**: it takes different words to different words, and
comes to every word. So two pairs have one scrambled word only where they have one key. -/
theorem scramble_permutes :
    Bijective scramble ∧
      ∀ a b c d : UInt32, scramblePair a b = scramblePair c d ↔ pairKey a b = pairKey c d :=
  ⟨coe_scrambling ▸ scrambling.bijective, fun _ _ _ _ => scramblePair_inj⟩

/-- The factor of the first index in a key. -/
def firstFactor : UInt32ˣ := ⟨73856093, 727089141, by decide, by decide⟩

/-- The factor of the second index in a key. -/
def secondFactor : UInt32ˣ := ⟨19349663, 2910444383, by decide, by decide⟩

/-- **With one particle as the first of the pair, all others get words of their own.** -/
theorem scramblePair_right_injective (a : UInt32) : Injective (scramblePair a) := by
  intro b c h
  have hkey : pairKey a b = pairKey a c := scramblePair_inj.1 h
  exact secondFactor.mul_left_inj.1 ((UInt32.xor_right_inj _).1 hkey)

/-- **With one particle as the second of the pair, all others get words of their own.** -/
theorem scramblePair_left_injective (b : UInt32) : Injective (scramblePair · b) := by
  intro a c h
  have hkey : pairKey a b = pairKey c b := scramblePair_inj.1 h
  exact firstFactor.mul_left_inj.1 ((UInt32.xor_left_inj _).1 hkey)

end ParticleDynamics
