import ParticleDynamics.Vector

/-!
# Directions

Two ways to a unit direction when a vector is too short to give one:

* `Vec2.normalizeOr` falls back to a direction that the caller names;
* `jitter` derives a direction from a pair of particle indices, so that particles lying exactly on
  top of each other part in a direction both of them can compute, without favouring any.

The pair is scrambled by `scramble`, an integer hash that also appears in the generated program
with the same constants.
-/

namespace ParticleDynamics

variable {α : Type} [Scalar α]

/-- Up to this distance two particles count as coincident. -/
@[inline] def coincident : α := 1e-5

/-- One turn, in radians. -/
@[inline] def turn : α := 6.2831855

/-- The vector at unit length, or `fallback` when it is too short to have a direction. -/
def Vec2.normalizeOr (v fallback : Vec2 α) : Vec2 α :=
  let length := v.length
  if coincident < length then v / length else fallback

/-- An integer hash: a linear step, a shift whose distance the value itself selects, an odd
multiplication and a last shift. All words wrap. -/
def scramble (value : UInt32) : UInt32 :=
  let state := value * 747796405 + 2891336453
  let word := ((state >>> ((state >>> 28) + 4)) ^^^ state) * 277803737
  (word >>> 22) ^^^ word

/-- The scrambled word of an ordered pair of indices. -/
def scramblePair (a b : UInt32) : UInt32 :=
  scramble ((a * 73856093) ^^^ (b * 19349663))

/-- The direction of an ordered pair of indices: the scrambled word, as a share of a whole turn. -/
def jitter (a b : UInt32) : Vec2 α :=
  let angle : α := Scalar.ofWord (scramblePair a b) / Scalar.ofWord 4294967295 * turn
  ⟨Scalar.cos angle, Scalar.sin angle⟩

/-- The direction along which the particle at index `i` is pushed away from the one at index `j`,
given the difference of their positions and its length. Two coincident particles use the direction
of their sorted pair, one of them reversed. -/
def contactNormal (delta : Vec2 α) (distance : α) (i j : UInt32) : Vec2 α :=
  if coincident < distance then delta / distance
  else if i < j then jitter i j
  else -(jitter j i)

variable {delta delta' : Vec2 α} {distance distance' : α} {i j : UInt32}

/-- Particles that are apart are pushed along the difference of their positions. -/
theorem contactNormal_of_apart (h : coincident < distance) :
    contactNormal delta distance i j = delta / distance :=
  if_pos h

/-- **Two coincident particles are pushed in opposite directions**, as the one with the smaller
index takes the direction of the sorted pair as it is, and the other one reverses it. -/
theorem contactNormal_of_coincident (hneg : ∀ a : α, - -a = a) (h : ¬ coincident < distance)
    (h' : ¬ coincident < distance') (hne : i ≠ j) :
    contactNormal delta distance i j = -contactNormal delta' distance' j i := by
  rw [contactNormal, contactNormal, if_neg h, if_neg h']
  rcases UInt32.lt_or_lt_of_ne hne with hlt | hlt
  · rw [if_pos hlt, if_neg (UInt32.lt_asymm hlt)]
    exact congr (congrArg Vec2.mk (hneg _).symm) (hneg _).symm
  · rw [if_neg (UInt32.lt_asymm hlt), if_pos hlt]

end ParticleDynamics
