import ParticleDynamics.Particle.Store
import ParticleDynamics.Pipeline.Integration
import ParticleDynamics.Settings.Basic

/-!
# The step

One step runs the phases over the whole set of particles:

* the state and the apply phase, once each;
* the integration;
* the constrain phase, as many times as the pipeline is set to;
* the correct phase, once;
* and last the removal of the particles that died on the way.

The neighbour index is rebuilt before the state phase, before each pass of constraints and before
the correct phase; the apply phase goes on with the index of the state phase. The scratch table has
one row per particle and follows the particles through the removal.
-/

namespace ParticleDynamics

/-- What the pipeline keeps between steps. -/
structure Pipeline (α : Type) where
  /-- the neighbour index -/
  grid : BucketGrid α
  /-- the scratch table as the last step left it -/
  table : Table α
  /-- the camera that the index follows -/
  camera : Camera α
  /-- the number of passes of constraints -/
  iterations : UInt32

/-- The outcome of a step in numbers. -/
structure Report where
  /-- how many calls failed, as far as a word can count them -/
  faults : UInt32
  /-- how many particles were removed -/
  removed : Nat
  /-- how many particles are left -/
  live : Nat
deriving DecidableEq, Repr

/-- What a step leaves behind. -/
structure Stepped (α : Type) where
  /-- the pipeline -/
  pipeline : Pipeline α
  /-- the store -/
  store : Store α
  /-- the outcome in numbers -/
  report : Report
  /-- what happened -/
  journal : Journal α

namespace Scene

variable {α : Type} [Scalar α]

/-- The given number of passes of constraints, each on a fresh neighbour index. -/
def constrain (registry : Registry α) (layout : ScratchLayout) (dt : α) :
    (iterations : Nat) → Scene α → Except Breach (Scene α)
  | 0, scene => .ok scene
  | iterations + 1, scene => do
    constrain registry layout dt iterations
      ((← scene.rebuild).runPhase registry layout .constrain dt)

/-- All phases of a step. -/
def runPhases (scene : Scene α) (registry : Registry α) (layout : ScratchLayout)
    (iterations : Nat) (dt : α) : Except Breach (Scene α) := do
  let scene ← scene.rebuild
  let scene := scene.runPhase registry layout .state dt
  let scene := scene.runPhase registry layout .apply dt
  let scene := scene.integrate dt
  let scene ← scene.constrain registry layout dt iterations
  let scene ← scene.rebuild
  return scene.runPhase registry layout .correct dt

end Scene

namespace Pipeline

variable {α : Type} [Scalar α]

/-- A pipeline with the given settings, looking through a camera. -/
def create (settings : Settings α) (camera : Camera α) : Except Breach (Pipeline α) := do
  let grid ← BucketGrid.ofCamera camera settings.cellSize settings.boundsPadding
    settings.hostGridCells
  return {
    grid := grid
    table := .create 0
    camera := camera
    iterations := settings.effectiveIterations }

/-- The pipeline looking through another camera, which the index follows at the next step. -/
def setCamera (p : Pipeline α) (camera : Camera α) : Pipeline α := { p with camera := camera }

/-- The pipeline with another number of passes of constraints, at least one. -/
def setIterations (p : Pipeline α) (iterations : UInt32) : Pipeline α :=
  { p with iterations := max iterations 1 }

/-- The scratch table at the beginning of a step: the old rows if the layout still has the same
stride, and one row for each of `count` particles. -/
def tableFor (p : Pipeline α) (layout : ScratchLayout) (count : Nat) : Table α :=
  (if p.table.stride = layout.stride then p.table else .create layout.stride).resize count

/-- The scene that a step begins with, on an index that has followed the camera. -/
def start (p : Pipeline α) (store : Store α) (layout : ScratchLayout) (grid : BucketGrid α) :
    Scene α where
  particles := store.particles
  grid := grid
  table := p.tableFor layout store.size

/-- Advance the simulation by a time `dt`. -/
def step (p : Pipeline α) (store : Store α) (registry : Registry α) (dt : α) :
    Except Breach (Stepped α) := do
  let layout := registry.scratch
  let (_, grid) ← p.grid.track p.camera
  let start := p.start store layout grid
  let scene ← start.runPhases registry layout p.iterations.toNat dt
  let keep := scene.particles.toList.map Particle.isAlive
  let survivors := scene.particles.filter Particle.isAlive
  return {
    pipeline := { p with grid := scene.grid, table := scene.table.retainRows keep }
    store := { store with particles := survivors }
    report := ⟨scene.journal.faults, scene.particles.size - survivors.size, survivors.size⟩
    journal := scene.journal }

end Pipeline

end ParticleDynamics
