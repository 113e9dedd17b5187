import ParticleDynamics.Decimal.Fixed
import ParticleDynamics.Demo.Arguments
import ParticleDynamics.Demo.Random
import ParticleDynamics.Force.Standard
import ParticleDynamics.Pipeline.Step
import ParticleDynamics.Settings.Stored
import ParticleDynamics.Shader.Program

/-!
# The demonstration

A cloud of particles falls into a box, the first few of them chained together, and after a number of
steps one line tells how many are left and how much energy they carry. The cloud is random but fixed
by its seed. Instead of simulating, the demonstration can print the generated program.
-/

namespace ParticleDynamics

namespace Demo

/-- The duration of a step: a sixtieth of a second. -/
def timeStep : Single := 1 / 60.0

/-! ### The cloud -/

/-- A random particle. The numbers are drawn in a fixed order: position, velocity, hue, size and
mass. -/
def birth : StateM Generator (Birth Single) := do
  let x ← Generator.between (-300.0) 300.0
  let y ← Generator.between (-200.0) 200.0
  let vx ← Generator.between (-40.0) 40.0
  let vy ← Generator.between (-40.0) 40.0
  let hue ← Generator.between 0.3 1
  let size ← Generator.between 3.0 6.0
  let mass ← Generator.between 0.5 2.0
  return {
    position := ⟨x, y⟩
    velocity := ⟨vx, vy⟩
    size := size
    mass := mass
    color := ⟨hue, 0.6, 1 - hue, 1⟩ }

/-- The given number of random particles. -/
def cloud (count : Nat) (seed : UInt64) : List (Birth Single) :=
  (((List.range count).mapM fun _ => birth).run (Generator.ofSeed seed)).1

/-! ### The scene -/

/-- A registry with one scalar of a module changed by key. -/
def adjust (registry : Registry Single) (name : String) (key : ParamKey Single)
    (value : Single) : Except Refusal (Registry Single) := do
  let handle ← registry.handle name
  return (← handle.set registry key value).registry

/-- A registry with one array of a module changed by key. -/
def fill (registry : Registry Single) (name : String) (key : ParamKey Single)
    (elements : List Single) : Except Refusal (Registry Single) := do
  let handle ← registry.handle name
  return (handle.setArray registry key elements.toArray).registry

/-- The number of joints that chain the first particles, at most eight, together. -/
def links (count : UInt32) : Nat := min count.toNat 8 - 1

/-- The scene: gravity, a lively box with a lower ceiling, and a chain. -/
def configure (registry : Registry Single) (count : UInt32) :
    Except Refusal (Registry Single) := do
  let registry ← adjust registry "environment" Environment.gravityY (-200.0)
  let registry ← adjust registry "boundary" Boundary.restitution 0.6
  let registry ← adjust registry "boundary" Boundary.maxY 300.0
  let ends := List.range (links count)
  let registry ← fill registry "joints" Joints.aIndexes (ends.map Single.ofCount)
  let registry ← fill registry "joints" Joints.bIndexes (ends.map fun i => Single.ofCount (i + 1))
  fill registry "joints" Joints.restLengths (ends.map fun _ => 12.0)

/-- The standard modules in the scene. -/
def scene (count : UInt32) : Except Refusal (Registry Single) := do
  configure (← Registry.ofModules Module.standard) count

/-! ### The run -/

/-- The store after a number of steps. -/
def simulate (registry : Registry Single) :
    (steps : Nat) → Pipeline Single → Store Single → Except Breach (Store Single)
  | 0, _, store => .ok store
  | steps + 1, pipeline, store => do
    let stepped ← pipeline.step store registry timeStep
    simulate registry steps stepped.pipeline stepped.store

/-- The kinetic energy of a particle. -/
def kineticEnergy (p : Particle Single) : Single := 0.5 * p.mass * p.velocity.lengthSquared

/-- The kinetic energy of the particles that can move. Adding up starts at negative zero, which
leaves every first summand as it is. -/
def totalEnergy (store : Store Single) : Single :=
  (store.particles.filter fun p => !p.isPinned).foldl (fun sum p => sum + kineticEnergy p) (-0.0)

/-- The line about a finished run. -/
def summary (steps : UInt32) (store : Store Single) : String :=
  toString store.size ++ " particles after " ++ toString steps.toNat ++
    " steps, kinetic energy " ++ Fixed.text 1 (totalEnergy store)

/-- The line that the demonstration prints for what is found where the settings are kept. -/
def output (arguments : Arguments) (stored : Stored) : Except Refusal String := do
  let settings ← Settings.load stored
  let registry ← scene arguments.count
  if arguments.program then
    return (← Program.build settings.workgroupSize registry).source
  else
    let (_, store) ← Refusal.lift
      (Store.empty.spawnAll (cloud arguments.count.toNat arguments.seed))
    let pipeline ← Refusal.lift (Pipeline.create settings Camera.standard)
    let final ← Refusal.lift (simulate registry arguments.steps.toNat pipeline store)
    return summary arguments.steps final

/-- The status after a refusal. -/
def status : Refusal → UInt32
  | .breach _ => 101
  | _ => 1

/-- The status with which the command line ends and what it prints, given what is found at each
path. -/
def run (find : String → Stored) (arguments : List String) : UInt32 × String :=
  match Arguments.parse? arguments with
  | none => (2, "")
  | some parsed =>
    match output parsed ((parsed.settings.map find).getD .missing) with
    | .ok line => (0, line ++ "\n")
    | .error refusal => (status refusal, "")

end Demo

end ParticleDynamics
