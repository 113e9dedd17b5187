import ParticleDynamics.Grid.Buckets
import ParticleDynamics.Registry.Basic

/-!
# One pass of a phase

A **pass** runs one phase once: every enabled module that implements the phase, in execution order,
on every live particle, in index order. All of them see the particles as they were when the pass
began, so what one call changes is invisible to the others except through the scratch table and
through the death of a particle, which keeps it from being called again.

A call that fails is counted, in a word that begins anew when it is full; the first failure of a
module in a pass is also reported as a warning. What the call did before it failed stays.

The **journal** records what happened, in order: the calls with what they saw, the integration, the
notes and the warnings.
-/

namespace ParticleDynamics

/-- Something that happened in a step. -/
inductive Event (α : Type) where
  /-- a module was called for a particle, with these particles in view -/
  | call (module : String) (phase : Phase) (index : Nat) (seen : Array (Particle α))
  /-- the particles were integrated -/
  | integration

/-- A note together with the call that left it. -/
structure Remark (α : Type) where
  /-- the module that was called -/
  module : String
  /-- the phase -/
  phase : Phase
  /-- the particle it was called for -/
  index : Nat
  /-- the note -/
  note : Note α

/-- What happened in a step, the earliest first. -/
structure Journal (α : Type) where
  /-- the calls and the integration -/
  events : Array (Event α) := #[]
  /-- the notes -/
  remarks : Array (Remark α) := #[]
  /-- the warnings -/
  warnings : Array String := #[]
  /-- the number of calls that failed, as far as a word can count them -/
  faults : UInt32 := 0

/-- Everything that changes during a step. -/
structure Scene (α : Type) where
  /-- the particles -/
  particles : Array (Particle α)
  /-- the neighbour index -/
  grid : BucketGrid α
  /-- the scratch table -/
  table : Table α
  /-- what has happened so far -/
  journal : Journal α := {}

/-- What is fixed while one module runs in one pass. -/
structure Pass (α : Type) where
  /-- the phase -/
  phase : Phase
  /-- the duration of the step -/
  dt : α
  /-- the module -/
  module : Module α
  /-- the values of its parameters -/
  params : ParamBag α
  /-- the particles when the pass began -/
  snapshot : Array (Particle α)
  /-- the neighbour index of the pass -/
  grid : BucketGrid α
  /-- where fields are kept -/
  layout : ScratchLayout

namespace Pass

variable {α : Type} [Scalar α]

/-- What the module sees when it is called for the particle at an index. -/
def view (pass : Pass α) (index : Nat) : View α where
  index := index.toUInt32
  dt := pass.dt
  params := pass.params
  snapshot := pass.snapshot
  search := pass.grid.query

/-- Where the calls of the pass take place. -/
def site (pass : Pass α) : Procedure.Site where
  owner := pass.module.name
  layout := pass.layout

/-- The call for a particle, on the data that it can reach. -/
def call (pass : Pass α) (index : Nat) (p : Particle α) (table : Table α) :
    Except String Unit × Procedure.Reach α :=
  (pass.module.run pass.phase (pass.view index)).run pass.site
    { particle := p, table := table }

/-- The warning about a call that failed. -/
def warning (pass : Pass α) (index : Nat) (message : String) : String :=
  "Module `" ++ pass.module.name ++ "` failed in " ++ pass.phase.name ++ " for particle " ++
    toString index ++ ": " ++ message

/-- The journal with one more call and what came of it. The flag says whether the module has failed
in this pass before. -/
def record (pass : Pass α) (failed : Bool) (index : Nat) (outcome : Except String Unit)
    (notes : Array (Note α)) (journal : Journal α) : Bool × Journal α :=
  let journal := { journal with
    events := journal.events.push (.call pass.module.name pass.phase index pass.snapshot)
    remarks := journal.remarks ++
      notes.map fun note => ⟨pass.module.name, pass.phase, index, note⟩ }
  match outcome with
  | .ok () => (failed, journal)
  | .error message =>
    (true,
      { journal with
        faults := journal.faults + 1
        warnings :=
          if failed then journal.warnings
          else journal.warnings.push (pass.warning index message) })

/-- Call the module for the particle at an index, unless it is dead. -/
def visit (pass : Pass α) (state : Bool × Scene α) (index : Nat) : Bool × Scene α :=
  let (failed, scene) := state
  match scene.particles[index]? with
  | none => (failed, scene)
  | some p =>
    if p.isAlive then
      let (outcome, reach) := pass.call index p scene.table
      let (failed, journal) := pass.record failed index outcome reach.notes scene.journal
      (failed,
        { scene with
          particles := scene.particles.modify index fun _ => reach.particle
          table := reach.table
          journal := journal })
    else (failed, scene)

/-- Call the module for the particles at the given indices, in order. -/
def visitAll (pass : Pass α) (order : List Nat) (scene : Scene α) : Scene α :=
  (order.foldl pass.visit (false, scene)).2

/-- Give the module its turn: call it for all live particles, in index order. -/
def turn (pass : Pass α) (scene : Scene α) : Scene α :=
  pass.visitAll (List.range scene.particles.size) scene

/-- A particle that is dead is passed over. -/
theorem visit_of_dead {pass : Pass α} {failed : Bool} {scene : Scene α} {index : Nat}
    {p : Particle α} (hp : scene.particles[index]? = some p) (hdead : p.isAlive = false) :
    pass.visit (failed, scene) index = (failed, scene) := by
  simp [visit, hp, hdead]

/-- A call changes no other particle. -/
theorem getElem?_visit_ne {pass : Pass α} {state : Bool × Scene α} {index other : Nat}
    (h : index ≠ other) :
    (pass.visit state index).2.particles[other]? = state.2.particles[other]? := by
  obtain ⟨failed, scene⟩ := state
  simp only [visit]
  split
  · rfl
  · split
    · simp [Array.getElem?_modify, h]
    · rfl

/-- A pass neither adds nor removes a particle. -/
theorem size_visit {pass : Pass α} (state : Bool × Scene α) (index : Nat) :
    (pass.visit state index).2.particles.size = state.2.particles.size := by
  obtain ⟨failed, scene⟩ := state
  simp only [visit]
  split
  · rfl
  · split
    · simp
    · rfl

end Pass

namespace Scene

variable {α : Type} [Scalar α]

/-- Whether a registered module takes part in a phase. -/
def takesPart (phase : Phase) (entry : Entry α) : Bool :=
  entry.module.role.implements phase && entry.params.enabled

/-- What is fixed while a module has its turn in a pass that began with the given scene. -/
def passOf (began : Scene α) (layout : ScratchLayout) (phase : Phase) (dt : α)
    (entry : Entry α) : Pass α :=
  ⟨phase, dt, entry.module, entry.params, began.particles, began.grid, layout⟩

/-- One pass of a phase. -/
def runPhase (scene : Scene α) (registry : Registry α) (layout : ScratchLayout) (phase : Phase)
    (dt : α) : Scene α :=
  (registry.entries.toList.filter (takesPart phase)).foldl
    (fun current entry => (scene.passOf layout phase dt entry).turn current) scene

/-- The scene with its neighbour index built from the particles as they are. -/
def rebuild (scene : Scene α) : Except Breach (Scene α) := do
  return { scene with grid := ← scene.grid.build scene.particles }

end Scene

end ParticleDynamics
