import ParticleDynamics.Pipeline.Scene

/-!
# Integration

Semi-implicit Euler: the velocity takes in the acceleration first, and the position then takes in
the new velocity. A pinned particle stands still instead. Either way the acceleration is spent.

The position before and after goes into the reserved slots of the particle's row, where the correct
phase finds what the constraints have moved since.
-/

namespace ParticleDynamics

namespace Particle

variable {α : Type} [Scalar α]

/-- The particle after a time `dt`. -/
def integrate (p : Particle α) (dt : α) : Particle α :=
  if p.isPinned then { p with velocity := 0, acceleration := 0 }
  else
    let velocity := p.velocity + p.acceleration * dt
    { p with
      velocity := velocity
      position := p.position + velocity * dt
      acceleration := 0 }

/-- Integration spends the acceleration. -/
@[simp] theorem acceleration_integrate (p : Particle α) (dt : α) :
    (p.integrate dt).acceleration = 0 := by
  unfold integrate
  split <;> rfl

/-- Integration keeps a particle as alive as it was. -/
@[simp] theorem mass_integrate (p : Particle α) (dt : α) : (p.integrate dt).mass = p.mass := by
  unfold integrate
  split <;> rfl

end Particle

namespace Table

variable {α : Type}

/-- The table with a position in two reserved slots of a row. -/
def setPair (t : Table α) (row : Nat) (x y : Reserved) (position : Vec2 α) : Table α :=
  (t.set row x.slot position.x).set row y.slot position.y

end Table

namespace Scene

variable {α : Type} [Scalar α]

/-- Integrate the particle at an index, unless it is dead. -/
def integrateAt (dt : α) (scene : Scene α) (index : Nat) : Scene α :=
  match scene.particles[index]? with
  | none => scene
  | some p =>
    if p.isAlive then
      let moved := p.integrate dt
      { scene with
        particles := scene.particles.modify index fun _ => moved
        table := (scene.table.setPair index .preX .preY p.position).setPair index .postX .postY
          moved.position }
    else scene

/-- Integrate all particles. -/
def integrate (scene : Scene α) (dt : α) : Scene α :=
  let scene := (List.range scene.particles.size).foldl (integrateAt dt) scene
  { scene with
    journal := { scene.journal with events := scene.journal.events.push .integration } }

end Scene

end ParticleDynamics
