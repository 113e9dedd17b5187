import ParticleDynamics.Device.Simulation
import ParticleDynamics.Source.Validity

/-!
# The limits of a device

A device that takes every valid program, within the greatest size that it counts to: neither the
invocations of a workgroup nor the bytes of a buffer may be more. Nothing about simulations depends
on it; it is one of the devices that they can be created on.
-/

namespace ParticleDynamics

namespace Device

/-- The greatest size that the device counts to. -/
def greatestSize : Nat := 2147483647

/-- What the device takes. -/
def Acceptance.withinLimits : Acceptance where
  program program :=
    decide (program.workgroupSize ≤ greatestSize) && Source.isProgram program.source
  buffer words := decide (words * wordBytes ≤ greatestSize)

end Device

end ParticleDynamics
