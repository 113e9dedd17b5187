import ParticleDynamics.Vector

/-!
# The camera

The camera says which part of the plane is being looked at. The spatial index covers that part and
a padding around it, so the camera is what its bounds are derived from.
-/

namespace ParticleDynamics

/-- A view of the plane. -/
structure Camera (α : Type) where
  /-- the point in the middle of the view -/
  center : Vec2 α
  /-- the extent that is visible at zoom one -/
  viewport : Vec2 α
  /-- how far the view is zoomed in -/
  zoom : α
deriving BEq, DecidableEq, Repr

namespace Camera

variable {α : Type} [Scalar α]

/-- A view of 1280 by 720 around the origin at zoom one. -/
def standard : Camera α where
  center := 0
  viewport := ⟨1280.0, 720.0⟩
  zoom := 1

/-- The smallest zoom that is respected; anything below counts as this much. -/
@[inline] def leastZoom : α := 1e-6

/-- The extent that is visible at the current zoom. -/
def visibleExtent (c : Camera α) : Vec2 α := c.viewport / Scalar.maximum c.zoom leastZoom

end Camera

end ParticleDynamics
