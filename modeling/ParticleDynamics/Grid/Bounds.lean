import ParticleDynamics.Grid.Camera

/-!
# Grid bounds

Bounds are a region of the plane cut into equal square cells. They are derived from the camera
(`Bounds.fromCamera`) or from a box (`Bounds.covering`), and limited in the number of cells by
widening the cells (`Bounds.capped`), which keeps the region.

Positions outside the region belong to the nearest edge cell (`Bounds.cellOf`). That keeps queries
exact everywhere: a cell holds every position that is nearest to it, and moving to the nearest cell
never takes two positions further apart.

A grid with no column or no row has no cell to offer, and one with more than `2^31` of them has
coordinates that no signed word can hold; locating a position there is a breach.
-/

namespace ParticleDynamics

/-- The coordinates of a cell, column first. -/
structure Cell where
  /-- the column -/
  x : Int
  /-- the row -/
  y : Int
deriving DecidableEq, Repr

/-- A region cut into square cells. -/
structure Bounds (α : Type) where
  /-- the lower corner -/
  origin : Vec2 α
  /-- the edge length of a cell -/
  cellSize : α
  /-- the number of columns -/
  cols : UInt32
  /-- the number of rows -/
  rows : UInt32
deriving BEq, DecidableEq, Repr

/-- A square block of cells, both corners included. -/
structure Window where
  /-- the lowest cell -/
  lo : Cell
  /-- the highest cell -/
  hi : Cell
deriving DecidableEq, Repr

/-- The greatest coordinate on an axis with `count` cells, when a signed word can express it. -/
def lastCell (count : UInt32) : Except Breach Int :=
  if count = 2147483648 then .error (.overflow "subtract")
  else .ok (count.toInt32.toInt - 1)

/-- An integer limited to `[lo, hi]`; an empty range is a breach. -/
def limit (value lo hi : Int) : Except Breach Int :=
  if lo ≤ hi then .ok (if value < lo then lo else if hi < value then hi else value)
  else .error .emptyRange

/-- Limiting lands in the range. -/
theorem limit_mem {value lo hi result : Int} (h : limit value lo hi = .ok result) :
    lo ≤ result ∧ result ≤ hi := by
  unfold limit at h
  split at h
  next hle =>
    simp only [Except.ok.injEq] at h
    split at h
    · omega
    · split at h <;> omega
  next => cases h

/-- **No two items of an array of rows lie at one place**, when the rows are laid out one after the
other. -/
theorem rowMajor_inj {width row row' column column' : Nat} (h : column < width)
    (h' : column' < width) :
    row * width + column = row' * width + column' ↔ row = row' ∧ column = column' := by
  have row_of (row column : Nat) (h : column < width) : (row * width + column) / width = row := by
    rw [Nat.add_comm, Nat.add_mul_div_right _ _ (by omega), Nat.div_eq_of_lt h, Nat.zero_add]
  refine ⟨fun heq => ?_, fun heq => by rw [heq.1, heq.2]⟩
  have hrow : row = row' := by rw [← row_of row column h, heq, row_of row' column' h']
  subst hrow
  exact ⟨rfl, by omega⟩

namespace Bounds

variable {α : Type} [Scalar α]

/-- The smallest edge length of a cell that is respected. -/
@[inline] def leastCellSize : α := 1e-3

/-- Bounds around what a camera shows, padded on every side by a fraction of its extent. The number
of cells depends on the padded extent alone: one spare cell per axis absorbs the snap of the origin
to whole cells, so moving the camera never changes the shape of the grid. -/
def fromCamera (camera : Camera α) (cellSize padding : α) : Bounds α :=
  let cellSize := Scalar.maximum cellSize leastCellSize
  let extent : Vec2 α := camera.visibleExtent * (1.0 + 2.0 * padding : α)
  let lower : Vec2 α := camera.center - extent * (0.5 : α)
  let shape := ((extent / cellSize).map Scalar.ceil).maximum (Vec2.splat 1) + Vec2.splat 1
  { origin := (lower / cellSize).map Scalar.floor * cellSize
    cellSize := cellSize
    cols := Scalar.toWord shape.x
    rows := Scalar.toWord shape.y }

/-- The smallest bounds made of whole cells that cover the box from `lower` to `upper`. -/
def covering (lower upper : Vec2 α) (cellSize : α) : Bounds α :=
  let cellSize := Scalar.maximum cellSize leastCellSize
  let origin := (lower / cellSize).map Scalar.floor * cellSize
  let shape := (((upper - origin) / cellSize).map Scalar.ceil).maximum (Vec2.splat 1)
  { origin := origin
    cellSize := cellSize
    cols := Scalar.toWord shape.x
    rows := Scalar.toWord shape.y }

/-- The number of cells on the longer axis. -/
def widest (b : Bounds α) : UInt32 := max b.cols b.rows

/-- The number of cells of width `cellSize` that fit `extent`, at least one and at most `most`. -/
def fitted (extent cellSize : α) (most : UInt32) : UInt32 :=
  min (max (Scalar.toWord (Scalar.ceil (extent / cellSize))) 1) most

/-- The bounds with at most `maxCells` cells on each axis. The region is kept; the cells widen. -/
def capped (b : Bounds α) (maxCells : UInt32) : Bounds α :=
  let most := max maxCells 1
  if b.widest ≤ most then b
  else
    let scale : α := Scalar.ofWord b.widest / Scalar.ofWord most
    let cellSize := b.cellSize * scale
    let extent : Vec2 α := (⟨Scalar.ofWord b.cols, Scalar.ofWord b.rows⟩ : Vec2 α) * b.cellSize
    { origin := b.origin
      cellSize := cellSize
      cols := fitted extent.x cellSize most
      rows := fitted extent.y cellSize most }

/-- The number of cells. -/
def cellCount (b : Bounds α) : Nat := b.cols.toNat * b.rows.toNat

/-- The cell of a position, or the nearest edge cell when it lies outside. -/
def cellOf (b : Bounds α) (position : Vec2 α) : Except Breach Cell := do
  let cell := ((position - b.origin) / b.cellSize).map Scalar.floor
  let x ← limit (Scalar.toSigned cell.x) 0 (← lastCell b.cols)
  let y ← limit (Scalar.toSigned cell.y) 0 (← lastCell b.rows)
  return ⟨x, y⟩

/-- The place of a cell in row-major order. -/
def flatIndex (b : Bounds α) (cell : Cell) : Nat := cell.y.toNat * b.cols.toNat + cell.x.toNat

/-- How many rings of cells around the centre a search of `radius` has to visit. The centre is
always a cell of the grid, so rings beyond the longer axis hold no cells. -/
def ringsFor (b : Bounds α) (radius : α) : Except Breach Nat := do
  let rings ← Scalar.clamp (Scalar.ceil (radius / b.cellSize)) 0 (Scalar.ofWord b.widest)
  return (Scalar.toSigned rings).toNat

/-- The block of cells that a search of `radius` around `point` visits, cut to the grid. -/
def window (b : Bounds α) (point : Vec2 α) (radius : α) : Except Breach Window := do
  let rings : Int := Int.ofNat (← b.ringsFor radius)
  let center ← b.cellOf point
  if 2147483647 < center.x + rings ∨ 2147483647 < center.y + rings then
    throw (.overflow "add")
  return {
    lo := ⟨max (center.x - rings) 0, max (center.y - rings) 0⟩
    hi := ⟨min (center.x + rings) (← lastCell b.cols), min (center.y + rings) (← lastCell b.rows)⟩ }

/-- A cell found for a position is a cell of the grid. -/
theorem cellOf_mem {b : Bounds α} {position : Vec2 α} {cell : Cell}
    (h : b.cellOf position = .ok cell) :
    (0 ≤ cell.x ∧ ∃ lastX, lastCell b.cols = .ok lastX ∧ cell.x ≤ lastX) ∧
      (0 ≤ cell.y ∧ ∃ lastY, lastCell b.rows = .ok lastY ∧ cell.y ≤ lastY) := by
  simp only [cellOf, bind, Except.bind, pure, Except.pure] at h
  cases hx : lastCell b.cols with
  | error _ => simp [hx] at h
  | ok lastX =>
    cases hy : lastCell b.rows with
    | error _ =>
      simp only [hx, hy] at h
      split at h <;> cases h
    | ok lastY =>
      simp only [hx, hy] at h
      split at h
      next => cases h
      next x hlx =>
        split at h
        next => cases h
        next y hly =>
          simp only [Except.ok.injEq] at h
          subst h
          exact ⟨⟨(limit_mem hlx).1, lastX, rfl, (limit_mem hlx).2⟩,
            ⟨(limit_mem hly).1, lastY, rfl, (limit_mem hly).2⟩⟩

end Bounds

end ParticleDynamics
