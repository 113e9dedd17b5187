import ParticleDynamics.Json.Codec
import ParticleDynamics.Settings.Basic

/-!
# Settings as text

Settings are kept as an object with one member per field, in the order of declaration. Reading is
lenient where writing is not: a missing field has its standard value, and a level of quality may
also be written as an object whose only member is its name with the value null.
-/

namespace ParticleDynamics

namespace Quality

/-- The written form of a level. -/
def toValue (q : Quality) : Json.Value := .str q.name

/-- The level that a value denotes. -/
def ofValue? : Json.Value → Option Quality
  | .text (some name) => ofName? name
  | .object [(some name, .null)] => ofName? name
  | _ => none

/-- A written level reads back. -/
@[simp] theorem ofValue?_toValue (q : Quality) : ofValue? q.toValue = some q := by
  simp [toValue, ofValue?, Json.Value.str]

end Quality

namespace Settings

/-- The names of the fields, in the order of declaration. -/
def fieldNames : List String :=
  ["quality", "cell_size", "bounds_padding", "max_per_cell", "gpu_grid_cells", "cpu_grid_cells",
    "constrain_iterations", "workgroup_size", "max_particles"]

/-- The written form of settings. -/
def toValue (s : Settings Single) : Json.Value :=
  .record [
    ("quality", s.quality.toValue),
    ("cell_size", .ofSingle s.cellSize),
    ("bounds_padding", .ofSingle s.boundsPadding),
    ("max_per_cell", .ofWord s.maxPerCell),
    ("gpu_grid_cells", .ofWord s.deviceGridCells),
    ("cpu_grid_cells", .ofWord s.hostGridCells),
    ("constrain_iterations", .ofWord s.constrainIterations),
    ("workgroup_size", .ofWord s.workgroupSize),
    ("max_particles", .ofWord s.maxParticles)]

/-- The value of a field, or its standard value when the field is missing. -/
def fieldOr {β : Type} (standard : β) (read : Json.Value → Option β) :
    Option Json.Value → Option β
  | none => some standard
  | some value => read value

/-- The settings that a value denotes. -/
def ofValue? (v : Json.Value) : Option (Settings Single) := do
  match ← v.fields? fieldNames with
  | [quality, cellSize, boundsPadding, maxPerCell, deviceGridCells, hostGridCells,
      constrainIterations, workgroupSize, maxParticles] =>
    let s : Settings Single := standard
    return {
      quality := ← fieldOr s.quality Quality.ofValue? quality
      cellSize := ← fieldOr s.cellSize Json.Value.single? cellSize
      boundsPadding := ← fieldOr s.boundsPadding Json.Value.single? boundsPadding
      maxPerCell := ← fieldOr s.maxPerCell Json.Value.word? maxPerCell
      deviceGridCells := ← fieldOr s.deviceGridCells Json.Value.word? deviceGridCells
      hostGridCells := ← fieldOr s.hostGridCells Json.Value.word? hostGridCells
      constrainIterations := ← fieldOr s.constrainIterations Json.Value.word? constrainIterations
      workgroupSize := ← fieldOr s.workgroupSize Json.Value.word? workgroupSize
      maxParticles := ← fieldOr s.maxParticles Json.Value.word? maxParticles }
  | _ => none

/-- The text in which settings are kept. -/
def toText (s : Settings Single) : String := s.toValue.pretty

/-- The settings that a text denotes. -/
def ofText? (text : String) : Option (Settings Single) := (Json.read? text).bind ofValue?

end Settings

end ParticleDynamics
