import ParticleDynamics.Grid.Bounds

/-!
# Following the camera

A tracker keeps grid bounds in step with a moving camera without deriving them anew at every
movement. They are derived again when the zoom or the viewport changes, or when the centre has
drifted by more than half a cell from where it stood the last time. The camera that the bounds were
last derived from is the **anchor**.
-/

namespace ParticleDynamics

/-- Bounds that follow a camera. -/
structure Tracker (α : Type) where
  /-- the camera that the bounds were last derived from -/
  anchor : Camera α
  /-- the edge length of a cell before any limit on the number of cells -/
  cellSize : α
  /-- the padding around the view, as a fraction of its extent -/
  padding : α
  /-- the greatest number of cells on an axis -/
  maxCells : UInt32
  /-- the current bounds -/
  bounds : Bounds α

namespace Tracker

variable {α : Type} [Scalar α]

/-- The bounds that a tracker with these settings derives from a camera. -/
def derive (camera : Camera α) (cellSize padding : α) (maxCells : UInt32) : Bounds α :=
  (Bounds.fromCamera camera cellSize padding).capped maxCells

/-- A tracker anchored at a camera. -/
def create (camera : Camera α) (cellSize padding : α) (maxCells : UInt32) : Tracker α where
  anchor := camera
  cellSize := cellSize
  padding := padding
  maxCells := maxCells
  bounds := derive camera cellSize padding maxCells

/-- Whether a camera is close enough to the anchor for the bounds to stay as they are. -/
def keeps (t : Tracker α) (camera : Camera α) : Bool :=
  let reframed := camera.zoom != t.anchor.zoom || camera.viewport != t.anchor.viewport
  let drift := ((camera.center - t.anchor.center).map Scalar.abs).largest
  !reframed && decide (drift ≤ t.bounds.cellSize * (0.5 : α))

/-- Follow the camera. The flag tells whether the bounds changed. -/
def track (t : Tracker α) (camera : Camera α) : Bool × Tracker α :=
  if t.keeps camera then (false, t)
  else
    let candidate := derive camera t.cellSize t.padding t.maxCells
    if candidate == t.bounds then (false, { t with anchor := camera })
    else (true, { t with anchor := camera, bounds := candidate })

/-- A camera that stays close leaves the tracker alone. -/
theorem track_of_keeps {t : Tracker α} {camera : Camera α} (h : t.keeps camera = true) :
    t.track camera = (false, t) := by
  simp [track, h]

/-- A camera that does not stay close becomes the anchor. -/
theorem anchor_track_of_not_keeps {t : Tracker α} {camera : Camera α}
    (h : t.keeps camera = false) : (t.track camera).2.anchor = camera := by
  simp only [track, h, Bool.false_eq_true, if_false]
  split <;> rfl

end Tracker

end ParticleDynamics
