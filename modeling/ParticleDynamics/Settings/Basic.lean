import ParticleDynamics.Scalar

/-!
# Settings

The knobs of the simulation that do not belong to a module. A quality preset fixes those that
decide how much the simulation can hold and how hard it works; the others are independent of it.

Assigning a preset to the `quality` field alone changes no other field: the capacities follow only
when the preset is applied.
-/

namespace ParticleDynamics

/-- A level of quality. -/
inductive Quality where
  /-- small capacities, one pass of constraints -/
  | low
  /-- the standard level -/
  | medium
  /-- large capacities, four passes of constraints -/
  | high
deriving DecidableEq, Repr

namespace Quality

/-- The name of a level. -/
def name : Quality → String
  | low => "Low"
  | medium => "Medium"
  | high => "High"

/-- The level with exactly this name. -/
def ofName? (text : String) : Option Quality :=
  if text = "Low" then some low
  else if text = "Medium" then some medium
  else if text = "High" then some high
  else none

/-- The level that a user means: its name or a short form of it, in any mixture of cases. Only
letters of the Latin alphabet can stand for a letter of these names, because no other character
has one of those letters alone as its lower case. -/
def parse? (text : String) : Option Quality :=
  let lower := text.toLower
  if lower = "low" then some low
  else if lower = "medium" ∨ lower = "med" then some medium
  else if lower = "high" then some high
  else none

/-- A level is known by its name. -/
@[simp] theorem ofName?_name (q : Quality) : ofName? q.name = some q := by
  cases q <;> rfl

/-- The number of slots per cell on the device. -/
def maxPerCell : Quality → UInt32
  | low => 16
  | medium => 32
  | high => 64

/-- The greatest number of cells on an axis of the device index. -/
def deviceGridCells : Quality → UInt32
  | low => 64
  | medium => 128
  | high => 256

/-- The number of constraint passes in a step. -/
def constrainIterations : Quality → UInt32
  | low => 1
  | medium => 2
  | high => 4

/-- The greatest number of cells on an axis of the host index. -/
def hostGridCells : Quality → UInt32
  | low => 256
  | medium => 512
  | high => 1024

/-- The number of particles that the device can hold. -/
def maxParticles : Quality → UInt32
  | low => 4096
  | medium => 16384
  | high => 65536

end Quality

/-- The settings of a simulation. -/
structure Settings (α : Type) where
  /-- the preset that the capacities were taken from -/
  quality : Quality
  /-- the edge length of a cell -/
  cellSize : α
  /-- the padding around the view, as a fraction of its extent -/
  boundsPadding : α
  /-- the number of slots per cell on the device -/
  maxPerCell : UInt32
  /-- the greatest number of cells on an axis of the device index -/
  deviceGridCells : UInt32
  /-- the greatest number of cells on an axis of the host index -/
  hostGridCells : UInt32
  /-- the number of constraint passes in a step -/
  constrainIterations : UInt32
  /-- the number of invocations in a workgroup -/
  workgroupSize : UInt32
  /-- the number of particles that the device can hold -/
  maxParticles : UInt32
deriving BEq, DecidableEq, Repr

namespace Settings

variable {α : Type}

/-- The settings with everything that a preset decides taken from it. -/
def applyPreset (s : Settings α) (q : Quality) : Settings α :=
  { s with
    quality := q
    maxPerCell := q.maxPerCell
    deviceGridCells := q.deviceGridCells
    hostGridCells := q.hostGridCells
    constrainIterations := q.constrainIterations
    maxParticles := q.maxParticles }

/-- The settings of a preset, everything else at its standard value. -/
def ofPreset [Scalar α] (q : Quality) : Settings α where
  quality := q
  cellSize := 40.0
  boundsPadding := 0.5
  maxPerCell := q.maxPerCell
  deviceGridCells := q.deviceGridCells
  hostGridCells := q.hostGridCells
  constrainIterations := q.constrainIterations
  workgroupSize := 64
  maxParticles := q.maxParticles

/-- The settings of the standard preset. -/
def standard [Scalar α] : Settings α := ofPreset .medium

/-- The number of constraint passes, at least one. -/
def effectiveIterations (s : Settings α) : UInt32 := max s.constrainIterations 1

end Settings

end ParticleDynamics
