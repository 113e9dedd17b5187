import ParticleDynamics.Force.Boundary
import ParticleDynamics.Force.Collisions
import ParticleDynamics.Force.Environment
import ParticleDynamics.Force.Fluid
import ParticleDynamics.Force.Joints
import ParticleDynamics.Force.Points

/-!
# The standard modules

The modules that come with the library, in the order in which they are usually registered.
-/

namespace ParticleDynamics.Module

variable {α : Type} [Scalar α]

/-- The standard modules in execution order. -/
def standard : List (Module α) :=
  [Environment.module, Fluid.module, Boundary.module, Collisions.module, Joints.module,
    Points.module]

/-- The standard module with a name. -/
def standard? (name : String) : Option (Module α) := standard.find? fun m => m.name = name

end ParticleDynamics.Module
