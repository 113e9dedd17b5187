import ParticleDynamics.Grid.Bounds
import ParticleDynamics.Json.Codec
import ParticleDynamics.Particle.Store

/-!
# Particles, stores and views as text

The written forms of the records that make up a saved simulation. Every field has to be there; none
has a standard value.
-/

namespace ParticleDynamics

open Json

/-- The fields of a record, all of which have to be there. -/
def Json.Value.required? (names : List String) (v : Value) : Option (List Value) := do
  (← v.fields? names).mapM id

namespace Camera

/-- The written form of a camera. -/
def toValue (c : Camera Single) : Value :=
  .record [("center", .ofVec2 c.center), ("viewport", .ofVec2 c.viewport),
    ("zoom", .ofSingle c.zoom)]

/-- The camera that a value denotes. -/
def ofValue? (v : Value) : Option (Camera Single) := do
  match ← v.required? ["center", "viewport", "zoom"] with
  | [center, viewport, zoom] => return ⟨← center.vec2?, ← viewport.vec2?, ← zoom.single?⟩
  | _ => none

end Camera

namespace Bounds

/-- The written form of bounds. -/
def toValue (b : Bounds Single) : Value :=
  .record [("origin", .ofVec2 b.origin), ("cell_size", .ofSingle b.cellSize),
    ("cols", .ofWord b.cols), ("rows", .ofWord b.rows)]

/-- The bounds that a value denotes. -/
def ofValue? (v : Value) : Option (Bounds Single) := do
  match ← v.required? ["origin", "cell_size", "cols", "rows"] with
  | [origin, cellSize, cols, rows] =>
    return ⟨← origin.vec2?, ← cellSize.single?, ← cols.word?, ← rows.word?⟩
  | _ => none

end Bounds

namespace Particle

/-- The written form of a particle. -/
def toValue (p : Particle Single) : Value :=
  .record [("id", .ofWord p.id), ("position", .ofVec2 p.position),
    ("velocity", .ofVec2 p.velocity), ("acceleration", .ofVec2 p.acceleration),
    ("size", .ofSingle p.size), ("mass", .ofSingle p.mass), ("color", .ofVec4 p.color)]

/-- The particle that a value denotes. -/
def ofValue? (v : Value) : Option (Particle Single) := do
  match ← v.required?
      ["id", "position", "velocity", "acceleration", "size", "mass", "color"] with
  | [id, position, velocity, acceleration, size, mass, color] =>
    return ⟨← id.word?, ← position.vec2?, ← velocity.vec2?, ← acceleration.vec2?,
      ← size.single?, ← mass.single?, ← color.vec4?⟩
  | _ => none

end Particle

namespace Birth

/-- The written form of what a particle is made from. -/
def toValue (b : Birth Single) : Value :=
  .record [("position", .ofVec2 b.position), ("velocity", .ofVec2 b.velocity),
    ("size", .ofSingle b.size), ("mass", .ofSingle b.mass), ("color", .ofVec4 b.color)]

/-- What a value says a particle is made from. -/
def ofValue? (v : Value) : Option (Birth Single) := do
  match ← v.required? ["position", "velocity", "size", "mass", "color"] with
  | [position, velocity, size, mass, color] =>
    return ⟨← position.vec2?, ← velocity.vec2?, ← size.single?, ← mass.single?, ← color.vec4?⟩
  | _ => none

end Birth

namespace Store

/-- The written form of a store. -/
def toValue (s : Store Single) : Value :=
  .record [("particles", .array (s.particles.toList.map Particle.toValue)),
    ("next_id", .ofWord s.issued)]

/-- The particles that a list denotes. -/
def particlesOfValue? : Value → Option (List (Particle Single))
  | .array items => items.mapM Particle.ofValue?
  | _ => none

/-- The store that a value denotes. It is taken as it is, sorted or not. -/
def ofValue? (v : Value) : Option (Store Single) := do
  match ← v.required? ["particles", "next_id"] with
  | [particles, issued] => return ⟨(← particlesOfValue? particles).toArray, ← issued.word?⟩
  | _ => none

/-- The text of a store. -/
def toText (s : Store Single) : String := s.toValue.compact

/-- The store that a text denotes. -/
def ofText? (text : String) : Option (Store Single) := (Json.read? text).bind ofValue?

end Store

end ParticleDynamics
