import ParticleDynamics.Proofs.Grid.Locating

/-!
# The cells of a window

A search visits the cells of a window row by row. Cut to the grid, the window of a search consists
of the cells of the grid whose distance from the centre is within the number of rings
(`Bounds.mem_cells_reach_iff`), so it is the same set of cells that a walk along the rings visits.
-/

namespace ParticleDynamics

namespace Window

/-- The cells of a row from a column on, in the order of a search. -/
def row (y : Int) : (count : Nat) → (x : Int) → List Cell
  | 0, _ => []
  | count + 1, x => ⟨x, y⟩ :: row y count (x + 1)

/-- The cells of some rows, from a row on. -/
def block (x : Int) (columns : Nat) : (count : Nat) → (y : Int) → List Cell
  | 0, _ => []
  | count + 1, y => row y columns x ++ block x columns count (y + 1)

/-- The cells of a window, in the order of a search. -/
def cells (w : Window) : List Cell :=
  block w.lo.x (w.hi.x - w.lo.x + 1).toNat (w.hi.y - w.lo.y + 1).toNat w.lo.y

theorem mem_row_iff {x y : Int} {count : Nat} {cell : Cell} :
    cell ∈ row y count x ↔ cell.y = y ∧ x ≤ cell.x ∧ cell.x < x + count := by
  induction count generalizing x with
  | zero =>
    rw [row]
    simp
  | succ count ih =>
    obtain ⟨x', y'⟩ := cell
    rw [row, List.mem_cons, ih, Cell.mk.injEq]
    dsimp only
    omega

theorem nodup_row (x y : Int) (count : Nat) : (row y count x).Nodup := by
  induction count generalizing x with
  | zero => exact List.nodup_nil
  | succ count ih =>
    refine List.nodup_cons.2 ⟨fun h => ?_, ih (x + 1)⟩
    have hnext : x + 1 ≤ x := (mem_row_iff.1 h).2.1
    omega

theorem mem_block_iff {x y : Int} {columns count : Nat} {cell : Cell} :
    cell ∈ block x columns count y ↔
      x ≤ cell.x ∧ cell.x < x + columns ∧ y ≤ cell.y ∧ cell.y < y + count := by
  induction count generalizing y with
  | zero =>
    rw [block]
    simp
  | succ count ih =>
    rw [block, List.mem_append, mem_row_iff, ih]
    omega

theorem nodup_block (x y : Int) (columns count : Nat) : (block x columns count y).Nodup := by
  induction count generalizing y with
  | zero => exact List.nodup_nil
  | succ count ih =>
    refine List.nodup_append'.2 ⟨nodup_row _ _ _, ih (y + 1), fun cell hcell hcell' => ?_⟩
    have hrow := (mem_row_iff.1 hcell).1
    have hrows := (mem_block_iff.1 hcell').2.2.1
    omega

/-- The cells of a window lie between its corners. -/
theorem mem_cells_iff {w : Window} {cell : Cell} :
    cell ∈ w.cells ↔
      w.lo.x ≤ cell.x ∧ cell.x ≤ w.hi.x ∧ w.lo.y ≤ cell.y ∧ cell.y ≤ w.hi.y := by
  rw [cells, mem_block_iff]
  omega

/-- **A search visits no cell of its window twice.** -/
theorem nodup_cells (w : Window) : w.cells.Nodup := nodup_block _ _ _ _

end Window

namespace Bounds

variable {α : Type} [Scalar α]

/-- The window of a search over some rings. -/
def reach (b : Bounds α) (center : Cell) (rings : Nat) : Window where
  lo := ⟨max (center.x - rings) 0, max (center.y - rings) 0⟩
  hi := ⟨min (center.x + rings) (b.cols.toNat - 1), min (center.y + rings) (b.rows.toNat - 1)⟩

/-- **A search has a window**, as long as no signed word overflows on the way to it. -/
theorem window_eq {b : Bounds α} (h : b.Proper) {point : Vec2 α} {radius : α} {rings : Nat}
    (hrings : b.ringsFor radius = .ok rings) (hcols : b.cols.toNat + rings ≤ 2 ^ 31)
    (hrows : b.rows.toNat + rings ≤ 2 ^ 31) :
    b.window point radius = .ok (b.reach (b.nearest (b.freeCell point)) rings) := by
  obtain ⟨hx, hx', hy, hy'⟩ := b.has_nearest h (b.freeCell point)
  rw [window, hrings]
  simp only [bind, Except.bind, cellOf_eq h, lastCell_eq h.cols_lt, lastCell_eq h.rows_lt]
  rw [if_neg (by simp only [Int.ofNat_eq_natCast]; omega)]
  rfl

omit [Scalar α] in
/-- **The window of a search consists of the cells of the grid within the rings.** The block is cut
to the grid, and this cuts off the cells that the grid does not have and no others. -/
theorem mem_cells_reach_iff {b : Bounds α} {center cell : Cell} {rings : Nat} :
    cell ∈ (b.reach center rings).cells ↔ b.Has cell ∧ cell.distance center ≤ rings := by
  rw [Window.mem_cells_iff, has_iff]
  simp only [reach, Cell.distance]
  omega

end Bounds

end ParticleDynamics
