import Mathlib.Algebra.Ring.Nat
import Mathlib.Data.List.Nodup
import Mathlib.Order.MinMax
import Mathlib.Tactic.MkIffOfInductiveProp
import ParticleDynamics.Grid.Ring

/-!
# Locating positions in a grid

A grid with at least one column and one row, and with fewer than `2^31` of each, has a cell for
every position whatever (`Bounds.cellOf_eq`), and its cells lie at different places in row-major
order (`Bounds.flatIndex_inj`). Nothing is assumed about the edge length of the cells, so all this
holds for bounds that are of no use as a subdivision of the plane too.

Cells are compared by their **distance** (`Cell.distance`), the larger of the distances along the
two axes. The cells at distance `r` from a centre are what `Ring.cells r` lists
(`Ring.mem_cells_iff`), each of them once (`Ring.nodup_cells`).
-/

namespace ParticleDynamics

/-- The larger of the distances along the two axes. -/
def Cell.distance (a b : Cell) : Nat := max (a.x - b.x).natAbs (a.y - b.y).natAbs

/-- The cell that lies at an offset from another. -/
def Cell.shift (cell offset : Cell) : Cell := ⟨cell.x + offset.x, cell.y + offset.y⟩

/-! ## Words -/

theorem toNat_max (m n : UInt32) : (max m n).toNat = max m.toNat n.toNat := by
  change (if m ≤ n then n else m).toNat = _
  split
  next hle => exact (Nat.max_eq_right (UInt32.le_iff_toNat_le.1 hle)).symm
  next hle =>
    rw [UInt32.le_iff_toNat_le] at hle
    omega

theorem toNat_min (m n : UInt32) : (min m n).toNat = min m.toNat n.toNat := by
  change (if m ≤ n then m else n).toNat = _
  split
  next hle => exact (Nat.min_eq_left (UInt32.le_iff_toNat_le.1 hle)).symm
  next hle =>
    rw [UInt32.le_iff_toNat_le] at hle
    omega

/-! ## The last cell of an axis -/

theorem toInt_toInt32 {count : UInt32} (h : count.toNat < 2 ^ 31) :
    count.toInt32.toInt = count.toNat := by
  change count.toBitVec.toInt = _
  refine BitVec.toInt_eq_toNat_of_lt ?_
  change 2 * count.toNat < 2 ^ 32
  omega

theorem lastCell_eq {count : UInt32} (h : count.toNat < 2 ^ 31) :
    lastCell count = .ok ((count.toNat : Int) - 1) := by
  have hne : count ≠ 2147483648 := by
    rintro rfl
    exact absurd h (by decide)
  rw [lastCell, if_neg hne, toInt_toInt32 h]

theorem limit_eq {value lo hi : Int} (h : lo ≤ hi) :
    limit value lo hi = .ok (max lo (min value hi)) := by
  rw [limit, if_pos h]
  congr 1
  split
  · omega
  · split <;> omega

namespace Bounds

variable {α : Type} [Scalar α]

/-! ## Cells of a grid -/

omit [Scalar α] in
/-- Bounds in which every position has a cell. -/
structure Proper (b : Bounds α) : Prop where
  cols_pos : 0 < b.cols.toNat
  cols_lt : b.cols.toNat < 2 ^ 31
  rows_pos : 0 < b.rows.toNat
  rows_lt : b.rows.toNat < 2 ^ 31

/-- A cell of the grid. -/
@[mk_iff]
structure Has (b : Bounds α) (cell : Cell) : Prop where
  x_nonneg : 0 ≤ cell.x
  x_lt : cell.x < b.cols.toNat
  y_nonneg : 0 ≤ cell.y
  y_lt : cell.y < b.rows.toNat

/-- The cell that a position has before it is limited to the grid. -/
def freeCell (b : Bounds α) (position : Vec2 α) : Cell :=
  let cell := ((position - b.origin) / b.cellSize).map Scalar.floor
  ⟨Scalar.toSigned cell.x, Scalar.toSigned cell.y⟩

/-- The cell of the grid that is nearest to a cell. -/
def nearest (b : Bounds α) (cell : Cell) : Cell :=
  ⟨max 0 (min cell.x (b.cols.toNat - 1)), max 0 (min cell.y (b.rows.toNat - 1))⟩

/-- **Every position has a cell.** -/
theorem cellOf_eq {b : Bounds α} (h : b.Proper) (position : Vec2 α) :
    b.cellOf position = .ok (b.nearest (b.freeCell position)) := by
  have hcols := h.cols_pos
  have hrows := h.rows_pos
  simp only [cellOf, lastCell_eq h.cols_lt, lastCell_eq h.rows_lt, bind, Except.bind, pure,
    Except.pure]
  rw [limit_eq (by omega), limit_eq (by omega)]
  rfl

omit [Scalar α] in
theorem has_nearest {b : Bounds α} (h : b.Proper) (cell : Cell) : b.Has (b.nearest cell) := by
  have hcols := h.cols_pos
  have hrows := h.rows_pos
  constructor <;> simp only [nearest] <;> omega

omit [Scalar α] in
/-- **The nearest cells of two cells are no further apart** than these were. -/
theorem distance_nearest_le (b : Bounds α) (cell other : Cell) :
    (b.nearest cell).distance (b.nearest other) ≤ cell.distance other := by
  have axis (last m n : Int) :
      (max 0 (min m last) - max 0 (min n last)).natAbs ≤ (m - n).natAbs := by
    omega
  exact max_le_max (axis _ _ _) (axis _ _ _)

omit [Scalar α] in
theorem toNat_widest (b : Bounds α) : b.widest.toNat = max b.cols.toNat b.rows.toNat :=
  toNat_max b.cols b.rows

/-! ## Places -/

omit [Scalar α] in
theorem flatIndex_lt {b : Bounds α} {cell : Cell} (h : b.Has cell) :
    b.flatIndex cell < b.cellCount := by
  obtain ⟨hx, hx', hy, hy'⟩ := h
  have hrow : (cell.y.toNat + 1) * b.cols.toNat ≤ b.rows.toNat * b.cols.toNat :=
    Nat.mul_le_mul_right _ (by omega)
  rw [flatIndex, cellCount, Nat.mul_comm b.cols.toNat]
  rw [Nat.add_mul, Nat.one_mul] at hrow
  omega

omit [Scalar α] in
/-- **No two cells of a grid lie at one place.** -/
theorem flatIndex_inj {b : Bounds α} {cell other : Cell} (h : b.Has cell) (h' : b.Has other) :
    b.flatIndex cell = b.flatIndex other ↔ cell = other := by
  obtain ⟨hx, hx', hy, hy'⟩ := h
  obtain ⟨hx₂, hx₂', hy₂, hy₂'⟩ := h'
  rw [flatIndex, flatIndex, rowMajor_inj (by omega) (by omega)]
  obtain ⟨x, y⟩ := cell
  obtain ⟨x', y'⟩ := other
  simp only [Cell.mk.injEq] at *
  omega

end Bounds

/-! ## Rings -/

namespace Ring

/-- The four sides of a ring, walked one after the other. -/
theorem offset_side {ring along : Nat} (side : Nat) (hring : 0 < ring) (halong : along < 2 * ring) :
    offset ring (2 * ring * side + along : Nat) =
      match side with
      | 0 => ⟨-ring + along, -ring⟩
      | 1 => ⟨ring, -ring + along⟩
      | 2 => ⟨ring - along, ring⟩
      | _ => ⟨-ring, ring - along⟩ := by
  -- nothing is negative here, so truncating division is division of natural numbers
  have hwidth : (2 * (ring : Int)) = ((2 * ring : Nat) : Int) := by omega
  have hdiv : Int.tdiv ((2 * ring * side + along : Nat) : Int) (2 * ring) = side := by
    rw [hwidth, Int.natCast_tdiv_eq_ediv, ← Int.natCast_ediv,
      Nat.mul_add_div (by omega), Nat.div_eq_of_lt halong, Nat.add_zero]
  have hmod : Int.tmod ((2 * ring * side + along : Nat) : Int) (2 * ring) = along := by
    rw [hwidth, Int.tmod_eq_emod_of_nonneg (Int.natCast_nonneg _), ← Int.natCast_emod,
      Nat.mul_add_mod, Nat.mod_eq_of_lt halong]
  rw [offset, if_neg (by omega)]
  simp only [hdiv, hmod]
  rcases side with _ | _ | _ | side <;> rfl

/-- A number below the length of a ring belongs to one of its four sides. -/
theorem exists_side {ring k : Nat} (hk : k < 8 * ring) :
    ∃ side along, side < 4 ∧ along < 2 * ring ∧ k = 2 * ring * side + along := by
  have hring : 0 < 2 * ring := by omega
  refine ⟨k / (2 * ring), k % (2 * ring), ?_, Nat.mod_lt _ hring, (Nat.div_add_mod _ _).symm⟩
  rw [Nat.div_lt_iff_lt_mul hring]
  omega

theorem toNat_length {ring : Nat} (hring : 0 < ring) : (length ring).toNat = 8 * ring := by
  rw [length, if_neg (by omega)]
  omega

/-- Every offset at a positive distance lies on a side of its ring. -/
theorem exists_offset_eq {ring : Nat} (hring : 0 < ring) {x y : Int}
    (h : Cell.distance ⟨x, y⟩ ⟨0, 0⟩ = ring) :
    ∃ side along : Nat, side < 4 ∧ along < 2 * ring ∧
      offset ring (2 * ring * side + along : Nat) = ⟨x, y⟩ := by
  obtain ⟨hx, hx', hy, hy', hedge⟩ : -(ring : Int) ≤ x ∧ x ≤ ring ∧ -(ring : Int) ≤ y ∧
      y ≤ ring ∧ (x = -ring ∨ x = ring ∨ y = -ring ∨ y = ring) := by
    simp only [Cell.distance] at h
    omega
  -- a corner belongs to the side that starts with it
  by_cases hright : x = ring ∧ y < ring
  · refine ⟨1, (y + ring).toNat, by omega, by omega, ?_⟩
    rw [offset_side 1 hring (by omega)]
    simp only [Cell.mk.injEq]
    omega
  by_cases htop : y = ring ∧ -(ring : Int) < x
  · refine ⟨2, (ring - x).toNat, by omega, by omega, ?_⟩
    rw [offset_side 2 hring (by omega)]
    simp only [Cell.mk.injEq]
    omega
  by_cases hleft : x = -ring ∧ -(ring : Int) < y
  · refine ⟨3, (ring - y).toNat, by omega, by omega, ?_⟩
    rw [offset_side 3 hring (by omega)]
    simp only [Cell.mk.injEq]
    omega
  · refine ⟨0, (x + ring).toNat, by omega, by omega, ?_⟩
    rw [offset_side 0 hring (by omega)]
    simp only [Cell.mk.injEq]
    omega

/-- **Ring `r` consists of the offsets at distance `r`.** -/
theorem mem_cells_iff {ring : Nat} {cell : Cell} :
    cell ∈ cells ring ↔ cell.distance ⟨0, 0⟩ = ring := by
  rcases Nat.eq_zero_or_pos ring with rfl | hring
  · obtain ⟨x, y⟩ := cell
    simp only [Int.natCast_zero, cells_zero, List.mem_singleton, Cell.mk.injEq, Cell.distance]
    omega
  · rw [cells, toNat_length hring, List.mem_map]
    constructor
    · rintro ⟨k, hk, rfl⟩
      obtain ⟨side, along, hside, halong, rfl⟩ := exists_side (List.mem_range.1 hk)
      rw [Int.ofNat_eq_natCast, offset_side side hring halong]
      rcases side with _ | _ | _ | _ | _ <;> simp only [Cell.distance] <;> omega
    · intro h
      obtain ⟨side, along, hside, halong, heq⟩ := exists_offset_eq hring h
      refine ⟨_, List.mem_range.2 ?_, heq⟩
      calc 2 * ring * side + along < 2 * ring * side + 2 * ring := by omega
        _ = 2 * ring * (side + 1) := (Nat.mul_succ _ _).symm
        _ ≤ 2 * ring * 4 := Nat.mul_le_mul_left _ hside
        _ = 8 * ring := by omega

/-- **The walk along a ring meets no offset twice.** -/
theorem nodup_cells (ring : Nat) : (cells ring).Nodup := by
  rcases Nat.eq_zero_or_pos ring with rfl | hring
  · rw [Int.natCast_zero, cells_zero]
    exact List.nodup_singleton _
  · rw [cells, toNat_length hring]
    refine List.Nodup.map_on (fun k hk k' hk' heq => ?_) List.nodup_range
    obtain ⟨side, along, hside, halong, rfl⟩ := exists_side (List.mem_range.1 hk)
    obtain ⟨side', along', hside', halong', rfl⟩ := exists_side (List.mem_range.1 hk')
    rw [Int.ofNat_eq_natCast, Int.ofNat_eq_natCast, offset_side side hring halong,
      offset_side side' hring halong'] at heq
    have hsame : side = side' ∧ along = along' := by
      rcases side with _ | _ | _ | _ | _ <;> rcases side' with _ | _ | _ | _ | _ <;>
        simp only [Cell.mk.injEq] at heq <;> omega
    rw [hsame.1, hsame.2]

/-- The cells of the rings up to `rings` around a centre, ring by ring. -/
def walk (center : Cell) (rings : Nat) : List Cell :=
  (List.range (rings + 1)).flatMap fun (ring : Nat) => (cells ring).map center.shift

theorem distance_shift (center offset : Cell) :
    (center.shift offset).distance center = offset.distance ⟨0, 0⟩ := by
  have axis (m n : Int) : (m + n - m).natAbs = (n - 0).natAbs := by omega
  simp only [Cell.distance, Cell.shift, axis]

/-- **Walking the rings visits every cell of the square around the centre.** -/
theorem mem_walk_iff {center cell : Cell} {rings : Nat} :
    cell ∈ walk center rings ↔ cell.distance center ≤ rings := by
  rw [walk, List.mem_flatMap]
  constructor
  · rintro ⟨ring, hring, hcell⟩
    obtain ⟨offset, hoffset, rfl⟩ := List.mem_map.1 hcell
    rw [distance_shift, mem_cells_iff.1 hoffset]
    exact Nat.lt_succ_iff.1 (List.mem_range.1 hring)
  · intro h
    have hback : center.shift ⟨cell.x - center.x, cell.y - center.y⟩ = cell := by
      have axis (m n : Int) : m + (n - m) = n := by omega
      simp only [Cell.shift, axis]
    refine ⟨cell.distance center, List.mem_range.2 (Nat.lt_succ_iff.2 h), ?_⟩
    refine List.mem_map.2 ⟨⟨cell.x - center.x, cell.y - center.y⟩, ?_, hback⟩
    rw [mem_cells_iff, ← distance_shift center, hback]

/-- **Walking the rings visits no cell twice.** -/
theorem nodup_walk (center : Cell) (rings : Nat) : (walk center rings).Nodup := by
  have shift_inj : Function.Injective center.shift := by
    rintro ⟨x, y⟩ ⟨x', y'⟩ h
    simp only [Cell.shift, Cell.mk.injEq, Int.add_right_inj] at h
    rw [h.1, h.2]
  refine List.nodup_flatMap.2 ⟨fun ring _ => (nodup_cells ring).map shift_inj, ?_⟩
  refine List.Pairwise.imp (fun {ring ring'} hne => ?_) List.nodup_range
  intro cell hcell hcell'
  -- an offset has one distance, so it lies on one ring
  obtain ⟨offset, hoffset, rfl⟩ := List.mem_map.1 hcell
  obtain ⟨offset', hoffset', heq⟩ := List.mem_map.1 hcell'
  obtain rfl := shift_inj heq
  exact hne ((mem_cells_iff.1 hoffset).symm.trans (mem_cells_iff.1 hoffset'))

end Ring

end ParticleDynamics
