import ParticleDynamics.Vector

/-!
# Particles

A particle is a record with a stable identity. Its mass also carries its status:

* mass zero means **dead**, to be removed at the end of the step;
* negative mass means **pinned**, alive but immovable;
* any other mass, including one that is not a number, means alive and free.
-/

namespace ParticleDynamics

/-- The identity of a particle, given out once by a store and never again. -/
abbrev ParticleId : Type := UInt32

/-- A simulated particle. -/
structure Particle (α : Type) where
  /-- the stable identity -/
  id : ParticleId
  /-- where it is -/
  position : Vec2 α
  /-- how fast it moves -/
  velocity : Vec2 α
  /-- what the forces of this step add up to; cleared by integration -/
  acceleration : Vec2 α
  /-- the radius -/
  size : α
  /-- the mass, which also encodes whether it is dead or pinned -/
  mass : α
  /-- the colour -/
  color : Vec4 α
deriving BEq, DecidableEq, Repr

/-- What a new particle is made from; the store adds the identity. -/
structure Birth (α : Type) where
  /-- where it appears -/
  position : Vec2 α
  /-- how fast it moves -/
  velocity : Vec2 α
  /-- the radius -/
  size : α
  /-- the mass -/
  mass : α
  /-- the colour -/
  color : Vec4 α
deriving BEq, DecidableEq, Repr

namespace Birth

variable {α : Type} [Scalar α]

/-- At rest in the origin, of radius five and unit mass, white. -/
def standard : Birth α where
  position := 0
  velocity := 0
  size := 5.0
  mass := 1
  color := Vec4.splat 1

/-- The particle that is born under an identity. -/
def withId (b : Birth α) (id : ParticleId) : Particle α where
  id := id
  position := b.position
  velocity := b.velocity
  acceleration := 0
  size := b.size
  mass := b.mass
  color := b.color

end Birth

namespace Particle

variable {α : Type} [Scalar α]

/-- A particle is alive unless its mass is zero. -/
@[inline] def isAlive (p : Particle α) : Bool := p.mass != 0

/-- Whether an index is that of a live particle. -/
def isLiveAt (particles : Array (Particle α)) (index : Nat) : Bool :=
  particles[index]?.any isAlive

/-- A particle is pinned when its mass is negative. -/
@[inline] def isPinned (p : Particle α) : Bool := p.mass < 0

/-- One over the mass, and zero for particles that are pinned or dead. -/
@[inline] def inverseMass (p : Particle α) : α := if 0 < p.mass then 1 / p.mass else 0

/-- The particle marked for removal. -/
@[inline] def kill (p : Particle α) : Particle α := { p with mass := 0 }

@[simp] theorem kill_id (p : Particle α) : p.kill.id = p.id := rfl
@[simp] theorem kill_position (p : Particle α) : p.kill.position = p.position := rfl

end Particle

end ParticleDynamics
