import ParticleDynamics.Grid.Bounds

/-!
# Rings

Ring `r` around a cell is the set of cells at Chebyshev distance `r` from it. Ring zero is the cell
itself; ring `r > 0` has `8r` cells, walked counter-clockwise from the lower left corner in four
sides of `2r` cells each. Walking the rings one after the other visits every cell of the square
around the centre once.

Division and remainder truncate toward zero, which matters only for arguments that name no cell.

`Ring.length` and `Ring.offset` are over the integers. `Ring.signedLength` and `Ring.signedOffset`
are the same in signed 32-bit words: they break where a word cannot hold the result, or the length
of a side.
-/

namespace ParticleDynamics

namespace Ring

/-- The number of cells on a ring. -/
def length (ring : Int) : Int := if ring = 0 then 1 else 8 * ring

/-- The offset from the centre of the `k`-th cell of a ring. -/
def offset (ring k : Int) : Cell :=
  if ring = 0 then ⟨0, 0⟩
  else
    let side := 2 * ring
    let along := Int.tmod k side
    match Int.tdiv k side with
    | 0 => ⟨-ring + along, -ring⟩
    | 1 => ⟨ring, -ring + along⟩
    | 2 => ⟨ring - along, ring⟩
    | _ => ⟨-ring, ring - along⟩

/-- The offsets of all cells of a ring, in the order of the walk. -/
def cells (ring : Int) : List Cell :=
  (List.range (length ring).toNat).map fun k => offset ring (Int.ofNat k)

/-- The centre is the only cell of ring zero. -/
theorem cells_zero : cells 0 = [⟨0, 0⟩] := by decide

/-! ### In signed words -/

/-- The number of cells on a ring, in a signed word. -/
def signedLength (ring : Int) : Except Breach Int := fitSigned "multiply" (length ring)

/-- The offset from the centre of the `k`-th cell of a ring, in signed words. -/
def signedOffset (ring k : Int) : Except Breach Cell := do
  let _ ← fitSigned "multiply" (2 * ring)
  let cell := offset ring k
  return ⟨← fitSigned "add" cell.x, ← fitSigned "add" cell.y⟩

/-- The offsets of all cells of a ring whose length a signed word can hold. -/
def signedCells (ring : Int) : Except Breach (List Cell) := do
  let _ ← signedLength ring
  return cells ring

end Ring

end ParticleDynamics
