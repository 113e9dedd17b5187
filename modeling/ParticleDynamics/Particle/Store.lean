import ParticleDynamics.Breach
import ParticleDynamics.Particle

/-!
# The particle store

A store owns the live particles and gives out identities in increasing order. Because removal keeps
the order and a replaced set is sorted on the way in, the array stays sorted by identity, and a
particle is found by bisection.

* `spawn` appends a particle under a fresh identity;
* `kill` marks one dead, `compact` removes the dead ones;
* `replaceAll` takes in a whole set. A particle keeps its identity when this store has issued it
  and no earlier particle of the set carries it too; all others get fresh ones.

An identity is never given out twice. When all of them are spent, `spawn` and `replaceAll` stop with
a breach instead of starting over.
-/

namespace ParticleDynamics

/-- The live particles together with the number of identities issued so far, which is also the
next identity. -/
structure Store (α : Type) where
  /-- the particles, in the order of their identities -/
  particles : Array (Particle α) := #[]
  /-- how many identities have been issued -/
  issued : UInt32 := 0

/-- The identity after `next`, or a breach when that was the last one. -/
def ParticleId.after (next : ParticleId) : Except Breach ParticleId :=
  if next = 4294967295 then .error .idsExhausted else .ok (next + 1)

namespace Store

variable {α : Type}

/-- A store without particles that has issued nothing. -/
def empty : Store α := {}

/-- The number of particles, dead ones included. -/
def size (s : Store α) : Nat := s.particles.size

/-! ### Finding a particle -/

/-- Bisection for `id` among the `size` particles from `base` on: the last of the places whose
identity is not above `id`, as far as halving can tell. -/
def bisect (particles : Array (Particle α)) (id : ParticleId) (base size : Nat) : Nat :=
  if 1 < size then
    let half := size / 2
    let above : Bool := match particles[base + half]? with
      | some p => decide (id < p.id)
      | none => true
    bisect particles id (if above then base else base + half) (size - half)
  else
    base
termination_by size
decreasing_by omega

/-- Where the particle with an identity stands in the array. -/
def indexOf (s : Store α) (id : ParticleId) : Option Nat :=
  let base := bisect s.particles id 0 s.particles.size
  match s.particles[base]? with
  | some p => if p.id = id then some base else none
  | none => none

/-- The particle with an identity. -/
def get? (s : Store α) (id : ParticleId) : Option (Particle α) :=
  (s.indexOf id).bind fun index => s.particles[index]?

/-- A particle that is found carries the identity that was asked for. -/
theorem id_of_indexOf {s : Store α} {id : ParticleId} {index : Nat}
    (h : s.indexOf id = some index) : ∃ p, s.particles[index]? = some p ∧ p.id = id := by
  simp only [indexOf] at h
  split at h
  next p hp =>
    split at h
    next hid =>
      obtain rfl := Option.some.inj h
      exact ⟨p, hp, hid⟩
    next => cases h
  next => cases h

/-! ### Changing the store -/

/-- The store with the particle at an index changed. -/
def modifyAt (s : Store α) (index : Nat) (f : Particle α → Particle α) : Store α :=
  { s with particles := s.particles.modify index f }

/-- A particle with a fresh identity, appended; the identity comes with the new store. -/
def spawn [Scalar α] (s : Store α) (birth : Birth α) : Except Breach (ParticleId × Store α) := do
  let next ← ParticleId.after s.issued
  return (s.issued, { particles := s.particles.push (birth.withId s.issued), issued := next })

/-- Particles with fresh identities, appended in order. -/
def spawnAll [Scalar α] (s : Store α) : List (Birth α) →
    Except Breach (List ParticleId × Store α)
  | [] => .ok ([], s)
  | birth :: rest => do
    let (id, s) ← s.spawn birth
    let (ids, s) ← s.spawnAll rest
    return (id :: ids, s)

/-- The particle with an identity marked dead. The flag tells whether there was one to kill. -/
def kill [Scalar α] (s : Store α) (id : ParticleId) : Bool × Store α :=
  match s.indexOf id with
  | some index =>
    match s.particles[index]? with
    | some p => if p.isAlive then (true, s.modifyAt index Particle.kill) else (false, s)
    | none => (false, s)
  | none => (false, s)

/-- The store without its dead particles; the others keep their order. -/
def compact [Scalar α] (s : Store α) : Store α :=
  { s with particles := s.particles.filter Particle.isAlive }

/-! ### Taking in a whole set -/

/-- The particles in the order of their identities; equal ones keep their order. -/
def sortById (particles : List (Particle α)) : List (Particle α) :=
  particles.mergeSort fun p q => p.id ≤ q.id

/-- Fresh identities for every particle of a sorted list whose own is not issued yet or repeats
that of the particle before. The result carries the next identity. -/
def relabel : Option ParticleId → ParticleId → List (Particle α) →
    Except Breach (ParticleId × List (Particle α))
  | _, next, [] => .ok (next, [])
  | previous, next, p :: rest =>
    if next ≤ p.id ∨ previous = some p.id then do
      let after ← ParticleId.after next
      let (last, rest') ← relabel (some p.id) after rest
      return (last, { p with id := next } :: rest')
    else do
      let (last, rest') ← relabel (some p.id) next rest
      return (last, p :: rest')

/-- The store with its particles replaced by a given set. -/
def replaceAll (s : Store α) (particles : List (Particle α)) : Except Breach (Store α) := do
  let (next, relabeled) ← relabel none s.issued (sortById particles)
  return { particles := (sortById relabeled).toArray, issued := next }

end Store

end ParticleDynamics
