import ParticleDynamics.Demo.Files

/-!
# The command line

Runs the demonstration. The status is two when the arguments cannot be understood, one when the
demonstration is refused, and zero after its output was printed.
-/

open ParticleDynamics in
/-- The demonstration with the given arguments. -/
def main (arguments : List String) : IO UInt32 := do
  let (status, output) ← Demo.runWithFiles arguments
  IO.print output
  return status
