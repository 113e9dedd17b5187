/-!
# Phases

A step runs four phases in which modules take part, in the order of `Phase.all`. Integration is the
pipeline's own affair and comes between `apply` and `constrain`.

A force module names the phases it implements as a `PhaseSet`; a render module implements none and
only carries parameters.
-/

namespace ParticleDynamics

/-- A phase of the step that modules take part in. -/
inductive Phase where
  /-- derive scratch values from the particles -/
  | state
  /-- add up accelerations -/
  | apply
  /-- move particles to where they are allowed to be -/
  | constrain
  /-- adjust velocities after the constraints -/
  | correct
deriving DecidableEq, Repr

namespace Phase

/-- The phases in the order of execution. -/
def all : List Phase := [state, apply, constrain, correct]

/-- The name of a phase. -/
def name : Phase → String
  | state => "state"
  | apply => "apply"
  | constrain => "constrain"
  | correct => "correct"

/-- The entry point of a phase in the generated program. -/
def entry (phase : Phase) : String := "phase_" ++ phase.name

/-- Every phase is executed. -/
theorem mem_all (phase : Phase) : phase ∈ all := by cases phase <;> decide

/-- The phase of a name. -/
def ofName? (name : String) : Option Phase := all.find? fun phase => phase.name = name

end Phase

/-- A set of phases. -/
structure PhaseSet where
  /-- whether `Phase.state` is in the set -/
  state : Bool := false
  /-- whether `Phase.apply` is in the set -/
  apply : Bool := false
  /-- whether `Phase.constrain` is in the set -/
  constrain : Bool := false
  /-- whether `Phase.correct` is in the set -/
  correct : Bool := false
deriving DecidableEq, Repr

namespace PhaseSet

/-- The set without phases. -/
def empty : PhaseSet := {}

/-- Whether a phase is in the set. -/
def contains (set : PhaseSet) : Phase → Bool
  | .state => set.state
  | .apply => set.apply
  | .constrain => set.constrain
  | .correct => set.correct

/-- The set with one more phase. -/
def insert (set : PhaseSet) : Phase → PhaseSet
  | .state => { set with state := true }
  | .apply => { set with apply := true }
  | .constrain => { set with constrain := true }
  | .correct => { set with correct := true }

/-- The set of the phases in a list. -/
def ofList (phases : List Phase) : PhaseSet := phases.foldl insert empty

/-- The phases of the set in the order of execution. -/
def toList (set : PhaseSet) : List Phase := Phase.all.filter set.contains

/-- Whether the set has no phase. -/
def isEmpty (set : PhaseSet) : Bool := set == empty

/-- Listing a set gives its phases. -/
theorem mem_toList {set : PhaseSet} {phase : Phase} :
    phase ∈ set.toList ↔ set.contains phase = true := by
  simp [toList, Phase.mem_all]

end PhaseSet

/-- How a module takes part. -/
inductive Role where
  /-- in the given phases of the step -/
  | force (phases : PhaseSet)
  /-- not at all; the module only carries parameters for drawing -/
  | render
deriving DecidableEq, Repr

namespace Role

/-- The phases in which a module of this role takes part. -/
def phases : Role → PhaseSet
  | force phases => phases
  | render => .empty

/-- Whether a module of this role takes part in a phase. -/
def implements (role : Role) (phase : Phase) : Bool := role.phases.contains phase

end Role

end ParticleDynamics
