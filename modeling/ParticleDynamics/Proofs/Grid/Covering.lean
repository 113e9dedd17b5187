import Mathlib.Data.Rat.Floor
import Mathlib.Tactic.FieldSimp
import Mathlib.Tactic.Linarith
import Mathlib.Tactic.NormNum.OfScientific
import ParticleDynamics.Grid.Tracker
import ParticleDynamics.Proofs.Grid.Exactness
import ParticleDynamics.Proofs.Grid.Tracking
import ParticleDynamics.Proofs.Scalar.Exact

/-!
# What bounds cover

Read over an ordered field, bounds are two rows of cells, one for each axis, and a position is
covered when it lies in a cell of both (`Bounds.Covers`). All that is said about bounds here is said
about a row first (`InCells`):

* a row that starts at a whole multiple of the cell size at or below an interval, and has a cell
  more than the interval is long, covers the interval;
* a row that goes on from there to the end of the interval covers it too, and no row of whole cells
  does so with fewer;
* a row whose cells are widened so that the longest one keeps to a limit covers what it covered.

No cell is lost by the limit itself: the widened cells of a row are as many as the longest row's, or
fewer, because all rows are widened by the same factor.
-/

namespace ParticleDynamics

/-! ## The shape of a grid -/

namespace Bounds

variable {α : Type} [Scalar α]

/-- Bounds with the same numbers of cells of the same size. -/
structure SameShape (b b' : Bounds α) : Prop where
  cols_eq : b.cols = b'.cols
  rows_eq : b.rows = b'.rows
  cellSize_eq : b.cellSize = b'.cellSize

/-- **Moving the camera does not change the shape** of the bounds around it. The number of cells
goes by the extent of the view, and where the view is only decides where they are. -/
theorem sameShape_fromCamera (camera : Camera α) (center : Vec2 α) (cellSize padding : α) :
    (fromCamera { camera with center := center } cellSize padding).SameShape
      (fromCamera camera cellSize padding) :=
  ⟨rfl, rfl, rfl⟩

/-- The shape of capped bounds depends on the shape of the bounds alone. -/
theorem SameShape.capped {b b' : Bounds α} (h : b.SameShape b') (maxCells : UInt32) :
    (b.capped maxCells).SameShape (b'.capped maxCells) := by
  obtain ⟨hcols, hrows, hsize⟩ := h
  have hwidest : b.widest = b'.widest := by rw [widest, widest, hcols, hrows]
  rw [Bounds.capped, Bounds.capped, hwidest]
  split
  next => exact ⟨hcols, hrows, hsize⟩
  next =>
    dsimp only
    rw [hcols, hrows, hsize]
    exact ⟨rfl, rfl, rfl⟩

/-- Capped bounds have no more cells on an axis than the cap allows, if it allows one. -/
theorem capped_le (b : Bounds α) {maxCells : UInt32} (hmost : 1 ≤ maxCells.toNat) :
    (b.capped maxCells).cols.toNat ≤ maxCells.toNat ∧
      (b.capped maxCells).rows.toNat ≤ maxCells.toNat := by
  have hmax : (max maxCells 1).toNat = max maxCells.toNat 1 := toNat_max maxCells 1
  rw [Bounds.capped]
  split
  next hle =>
    have hwidest := toNat_widest b
    have hle' := UInt32.le_iff_toNat_le.1 hle
    omega
  next =>
    have hcap : (max maxCells 1).toNat = maxCells.toNat := by omega
    have hpos : 1 ≤ (max maxCells 1).toNat := by omega
    rw [← hcap]
    exact ⟨(toNat_fitted_mem _ _ hpos).2, (toNat_fitted_mem _ _ hpos).2⟩

end Bounds

variable {K : Type} [Field K] [LinearOrder K]

/-! ## Rows of cells -/

/-- A coordinate lies in one of `count` cells in a row, the ends of the cell included. -/
def InCells (origin size : K) (count : Nat) (x : K) : Prop :=
  ∃ i < count, origin + i * size ≤ x ∧ x ≤ origin + (i + 1) * size

namespace InCells

variable {origin size x : K} {count : Nat}

theorem count_pos (h : InCells origin size count x) : 0 < count := by
  obtain ⟨i, hi, -, -⟩ := h
  exact Nat.zero_lt_of_lt hi

/-- **The cells of a row leave no gap.** -/
theorem of_le (hcount : 0 < count) (hlo : origin ≤ x) (hhi : x ≤ origin + count * size) :
    InCells origin size count x := by
  induction count with
  | zero => cases hcount
  | succ count ih =>
    by_cases hlast : origin + count * size ≤ x
    · exact ⟨count, Nat.lt_succ_self count, hlast, by exact_mod_cast hhi⟩
    · -- a coordinate below the last cell lies in one of the cells before
      have hbefore : 0 < count := by
        refine Nat.pos_of_ne_zero fun hzero => hlast ?_
        rw [hzero, Nat.cast_zero, zero_mul, add_zero]
        exact hlo
      obtain ⟨i, hi, hcell⟩ := ih hbefore (not_le.1 hlast).le
      exact ⟨i, Nat.lt_succ_of_lt hi, hcell⟩

variable [IsStrictOrderedRing K]

/-- Only cells of some size, or of none at all, hold a coordinate. -/
theorem size_nonneg (h : InCells origin size count x) : 0 ≤ size := by
  obtain ⟨i, -, hlo, hhi⟩ := h
  linarith

theorem origin_le (h : InCells origin size count x) : origin ≤ x := by
  obtain ⟨i, -, hlo, -⟩ := id h
  have hpast : 0 ≤ (i : K) * size := mul_nonneg (Nat.cast_nonneg i) h.size_nonneg
  linarith

theorem le_end (h : InCells origin size count x) : x ≤ origin + count * size := by
  obtain ⟨i, hi, -, hhi⟩ := id h
  have hlast : ((i : K) + 1) * size ≤ count * size := by
    refine mul_le_mul_of_nonneg_right ?_ h.size_nonneg
    exact_mod_cast hi
  linarith

/-- What a row covers, a row from the same origin covers that ends no earlier. -/
theorem mono {size' : K} {count' : Nat} (h : InCells origin size count x) (hcount : 0 < count')
    (hend : count * size ≤ count' * size') : InCells origin size' count' x :=
  of_le hcount h.origin_le (h.le_end.trans (add_le_add_right hend origin))

end InCells

/-! ## Rows that are snapped to whole cells -/

/-- A number of cells as a number. -/
theorem cast_toNat {L : Type} [Ring L] {n : ℤ} (hn : 0 ≤ n) : (n.toNat : L) = n := by
  rw [← Int.cast_natCast, Int.toNat_of_nonneg hn]

section

variable [IsStrictOrderedRing K] [FloorRing K] {size lower upper x : K}

/-- The greatest multiple of a cell size that is not above a number. -/
theorem snap_le (hsize : 0 < size) (lower : K) : ⌊lower / size⌋ * size ≤ lower :=
  (le_div_iff₀ hsize).1 (Int.floor_le _)

theorem lt_snap_add (hsize : 0 < size) (lower : K) : lower < ⌊lower / size⌋ * size + size := by
  have hnext : lower < (⌊lower / size⌋ + 1) * size :=
    (div_lt_iff₀ hsize).1 (Int.lt_floor_add_one _)
  rwa [add_mul, one_mul] at hnext

/-- As many cells as an extent needs, and at least one, are as long as the extent. -/
theorem le_cells_mul (hsize : 0 < size) (extent : K) :
    extent ≤ (max ⌈extent / size⌉ 1 : ℤ) * size := by
  have hceil : extent ≤ ⌈extent / size⌉ * size := (div_le_iff₀ hsize).1 (Int.le_ceil _)
  refine hceil.trans (mul_le_mul_of_nonneg_right ?_ hsize.le)
  exact_mod_cast le_max_left _ _

/-- **One spare cell makes up for snapping.** Snapping moves the lower end down by less than a cell,
and so one more at the upper end is enough. -/
theorem inCells_of_spare (hsize : 0 < size) {extent : K} (hlo : lower ≤ x)
    (hhi : x ≤ lower + extent) :
    InCells (⌊lower / size⌋ * size) size (max ⌈extent / size⌉ 1 + 1).toNat x := by
  refine .of_le (by omega) ((snap_le hsize lower).trans hlo) ?_
  have hcells := le_cells_mul hsize extent
  have hsnap := lt_snap_add hsize lower
  rw [cast_toNat (by omega), Int.cast_add, Int.cast_one, add_mul, one_mul]
  linarith

/-- A row from the snapped lower end to the upper end. -/
theorem inCells_of_between (hsize : 0 < size) (hlo : lower ≤ x) (hhi : x ≤ upper) :
    InCells (⌊lower / size⌋ * size) size
      (max ⌈(upper - ⌊lower / size⌋ * size) / size⌉ 1).toNat x := by
  refine .of_le (by omega) ((snap_le hsize lower).trans hlo) ?_
  have hcells := le_cells_mul hsize (upper - ⌊lower / size⌋ * size)
  rw [cast_toNat (by omega)]
  linarith

/-- **No row of whole cells is shorter**, if it covers both ends. Whole cells can begin no later
than the last one that begins at the lower end or before it, and this is where the row does
begin. -/
theorem cells_between_le (hsize : 0 < size) {start : ℤ} {count : Nat}
    (hlower : InCells (start * size) size count lower)
    (hupper : InCells (start * size) size count upper) :
    (max ⌈(upper - ⌊lower / size⌋ * size) / size⌉ 1).toNat ≤ count := by
  have hstart : start ≤ ⌊lower / size⌋ :=
    Int.le_floor.2 ((le_div_iff₀ hsize).2 hlower.origin_le)
  have hends : upper - ⌊lower / size⌋ * size ≤ (count : ℤ) * size := by
    have hshift : (start : K) * size ≤ ⌊lower / size⌋ * size :=
      mul_le_mul_of_nonneg_right (by exact_mod_cast hstart) hsize.le
    have hend := hupper.le_end
    rw [Int.cast_natCast]
    linarith
  have hceil : ⌈(upper - ⌊lower / size⌋ * size) / size⌉ ≤ count :=
    Int.ceil_le.2 ((div_le_iff₀ hsize).2 hends)
  have hpos := hlower.count_pos
  omega

/-! ## Rows of widened cells -/

/-- Widened by the factor that brings the longest row to the limit, no row needs more cells than the
limit. -/
theorem ceil_widened_le {count widest : Nat} (hcount : count ≤ widest) (most : Nat) (size : K) :
    ⌈count * size / (size * (widest / most))⌉ ≤ most := by
  refine Int.ceil_le.2 ?_
  rw [Int.cast_natCast]
  rcases eq_or_ne size 0 with rfl | hsize
  · rw [mul_zero, zero_div]
    exact Nat.cast_nonneg most
  · rcases Nat.eq_zero_or_pos widest with rfl | hwidest
    · rw [Nat.cast_zero, zero_div, mul_zero, div_zero]
      exact Nat.cast_nonneg most
    · have hwide : (0 : K) < widest := Nat.cast_pos.2 hwidest
      rw [mul_comm size, mul_div_mul_right _ _ hsize, div_div_eq_mul_div, div_le_iff₀ hwide,
        mul_comm (most : K)]
      exact mul_le_mul_of_nonneg_right (Nat.cast_le.2 hcount) (Nat.cast_nonneg most)

/-- **A row of widened cells covers what it covered.** The cells widen by the factor by which the
longest row exceeds the cap, so that each row needs at most as many as are allowed. -/
theorem InCells.widened {origin : K} {count widest most : Nat} (hcount : count ≤ widest)
    (hmost : 0 < most) (h : InCells origin size count x) :
    InCells origin (size * (widest / most))
      (min (max ⌈count * size / (size * (widest / most))⌉.toNat 1) most) x := by
  have hwide : (0 : K) < widest := Nat.cast_pos.2 (Nat.lt_of_lt_of_le h.count_pos hcount)
  have hscale : (0 : K) < widest / most := div_pos hwide (Nat.cast_pos.2 hmost)
  have hlimit := ceil_widened_le hcount most size
  refine h.mono (by omega) ?_
  rcases h.size_nonneg.eq_or_lt with rfl | hsize
  · rw [mul_zero, zero_mul, mul_zero]
  · have hneeded : (⌈count * size / (size * (widest / most))⌉ : K) ≤
        (min (max ⌈count * size / (size * (widest / most))⌉.toNat 1) most : ℕ) := by
      exact_mod_cast (by omega : ⌈count * size / (size * (widest / most))⌉ ≤
        ((min (max ⌈count * size / (size * (widest / most))⌉.toNat 1) most : ℕ) : ℤ))
    calc (count : K) * size
        ≤ ⌈count * size / (size * (widest / most))⌉ * (size * (widest / most)) :=
          (div_le_iff₀ (mul_pos hsize hscale)).1 (Int.le_ceil _)
      _ ≤ _ := mul_le_mul_of_nonneg_right hneeded (mul_pos hsize hscale).le

end

/-! ## Counts as words -/

/-- The larger one of a whole number and one. -/
theorem larger_one [IsStrictOrderedRing K] (n : ℤ) :
    (if (1 : K) < n then (n : K) else 1) = ((max n 1 : ℤ) : K) := by
  rw [← max_def_lt, Int.cast_max, Int.cast_one, max_comm]

/-- The size that cells get when a size is asked for; a size that is not too small is respected. -/
def Bounds.respected (cellSize : K) : K := max cellSize (1 / 1000)

theorem Bounds.respected_pos [IsStrictOrderedRing K] (cellSize : K) : 0 < respected cellSize :=
  lt_max_of_lt_right (by norm_num)

variable [FloorRing K] [Scalar.Curves K]

/-- Nothing is unordered, so the larger of two numbers is their maximum. -/
theorem Scalar.maximum_eq (a b : K) : Scalar.maximum a b = max a b := by
  have hself : Scalar.isNumber a = true := beq_self_eq_true a
  rw [Scalar.maximum, if_pos hself, max_def_lt]

theorem Camera.leastZoom_eq : (Camera.leastZoom : K) = 1 / 1000000 := by
  norm_num [Camera.leastZoom]

theorem Bounds.leastCellSize_eq : (Bounds.leastCellSize : K) = 1 / 1000 := by
  norm_num [Bounds.leastCellSize]

variable [IsStrictOrderedRing K]

/-- A count that fits a word is the whole part of its number. -/
theorem Scalar.toNat_toWord {n : ℤ} (hfits : n < 2 ^ 32) :
    (Scalar.toWord (n : K)).toNat = n.toNat := by
  have hword : min n.toNat 4294967295 < 2 ^ 32 := by omega
  change (UInt32.ofNat (min (Scalar.truncate (n : K)).toNat 4294967295)).toNat = _
  rw [Scalar.truncate_intCast, UInt32.toNat_ofNat_of_lt' hword]
  omega

/-- The cells that an extent needs, as a word. -/
theorem toNat_toWord_larger {a : K} (hfits : ⌈a⌉ < 2 ^ 32) :
    (Scalar.toWord (if (1 : K) < Scalar.ceil a then Scalar.ceil a else 1)).toNat =
      (max ⌈a⌉ 1).toNat := by
  rw [← Scalar.toNat_toWord (K := K) (max_lt hfits (by norm_num)), ← larger_one]
  rfl

/-- The cells that an extent needs and a spare one, as a word. -/
theorem toNat_toWord_spare {a : K} (hfits : ⌈a⌉ + 1 < 2 ^ 32) :
    (Scalar.toWord ((if (1 : K) < Scalar.ceil a then Scalar.ceil a else 1) + 1)).toNat =
      (max ⌈a⌉ 1 + 1).toNat := by
  have hspare : max ⌈a⌉ 1 + 1 < 2 ^ 32 := by omega
  rw [← Scalar.toNat_toWord (K := K) hspare, Int.cast_add, Int.cast_one, ← larger_one]
  rfl

/-! ## Bounds -/

/-- The extent of what a camera shows and of a padding around it, a fraction of it on each side. -/
def Camera.paddedExtent (camera : Camera K) (padding : K) : Vec2 K :=
  ⟨camera.viewport.x / camera.zoom * (1 + 2 * padding),
    camera.viewport.y / camera.zoom * (1 + 2 * padding)⟩

namespace Bounds

/-- A position lies in a cell of the bounds, the edges of the cell included. -/
def Covers (b : Bounds K) (p : Vec2 K) : Prop :=
  InCells b.origin.x b.cellSize b.cols.toNat p.x ∧ InCells b.origin.y b.cellSize b.rows.toNat p.y

omit [IsStrictOrderedRing K] in
theorem maximum_leastCellSize (cellSize : K) :
    Scalar.maximum cellSize leastCellSize = respected cellSize := by
  rw [Scalar.maximum_eq, leastCellSize_eq, respected]

omit [IsStrictOrderedRing K] in
theorem visibleExtent_mul {camera : Camera K} (hzoom : 1 / 1000000 ≤ camera.zoom) (padding : K) :
    camera.visibleExtent * (1.0 + 2.0 * padding : K) = camera.paddedExtent padding := by
  have hfactor : (1.0 + 2.0 * padding : K) = 1 + 2 * padding := by norm_num
  rw [Camera.visibleExtent, Scalar.maximum_eq, Camera.leastZoom_eq, max_eq_left hzoom, hfactor]
  rfl

/-- **Bounds around a camera cover the padded view.** The axes are treated one by one, each as a row
of cells. -/
theorem covers_fromCamera {camera : Camera K} {cellSize padding : K}
    (hzoom : 1 / 1000000 ≤ camera.zoom)
    (hcols : ⌈(camera.paddedExtent padding).x / respected cellSize⌉ + 1 < 2 ^ 32)
    (hrows : ⌈(camera.paddedExtent padding).y / respected cellSize⌉ + 1 < 2 ^ 32) {p : Vec2 K}
    (hx : |p.x - camera.center.x| ≤ (camera.paddedExtent padding).x / 2)
    (hy : |p.y - camera.center.y| ≤ (camera.paddedExtent padding).y / 2) :
    (fromCamera camera cellSize padding).Covers p := by
  have hpos := respected_pos cellSize
  have hhalf : (0.5 : K) = 1 / 2 := by norm_num
  have axis {center extent coordinate : K} (hfits : ⌈extent / respected cellSize⌉ + 1 < 2 ^ 32)
      (hnear : |coordinate - center| ≤ extent / 2) :
      InCells (⌊(center - extent * 0.5) / respected cellSize⌋ * respected cellSize)
        (respected cellSize)
        (Scalar.toWord ((if (1 : K) < Scalar.ceil (extent / respected cellSize)
          then Scalar.ceil (extent / respected cellSize) else 1) + 1)).toNat coordinate := by
    obtain ⟨hlo, hhi⟩ := abs_le.1 hnear
    rw [toNat_toWord_spare hfits, hhalf]
    exact inCells_of_spare hpos (by linarith) (by linarith)
  rw [Covers, fromCamera, maximum_leastCellSize, visibleExtent_mul hzoom]
  exact ⟨axis hcols hx, axis hrows hy⟩

section

variable {lower upper : Vec2 K} {cellSize : K}
  (hcols : ⌈upper.x / respected cellSize⌉ - ⌊lower.x / respected cellSize⌋ < 2 ^ 32)
  (hrows : ⌈upper.y / respected cellSize⌉ - ⌊lower.y / respected cellSize⌋ < 2 ^ 32)

include hcols hrows

theorem covering_eq :
    (covering lower upper cellSize).cellSize = respected cellSize ∧
      (covering lower upper cellSize).origin =
        ⟨⌊lower.x / respected cellSize⌋ * respected cellSize,
          ⌊lower.y / respected cellSize⌋ * respected cellSize⟩ ∧
      (covering lower upper cellSize).cols.toNat =
        (max ⌈(upper.x - ⌊lower.x / respected cellSize⌋ * respected cellSize) /
          respected cellSize⌉ 1).toNat ∧
      (covering lower upper cellSize).rows.toNat =
        (max ⌈(upper.y - ⌊lower.y / respected cellSize⌋ * respected cellSize) /
          respected cellSize⌉ 1).toNat := by
  have hpos := respected_pos cellSize
  have axis {lo hi : K}
      (hfits : ⌈hi / respected cellSize⌉ - ⌊lo / respected cellSize⌋ < 2 ^ 32) :
      ⌈(hi - ⌊lo / respected cellSize⌋ * respected cellSize) / respected cellSize⌉ < 2 ^ 32 := by
    rwa [sub_div, mul_div_cancel_right₀ _ hpos.ne', Int.ceil_sub_intCast]
  rw [covering, maximum_leastCellSize]
  exact ⟨rfl, rfl, toNat_toWord_larger (axis hcols), toNat_toWord_larger (axis hrows)⟩

/-- **Covering bounds cover their box.** -/
theorem covers_covering {p : Vec2 K} (hx : lower.x ≤ p.x ∧ p.x ≤ upper.x)
    (hy : lower.y ≤ p.y ∧ p.y ≤ upper.y) : (covering lower upper cellSize).Covers p := by
  have hpos := respected_pos cellSize
  obtain ⟨heq, horigin, hwidth, hheight⟩ := covering_eq hcols hrows
  rw [Covers, heq, horigin, hwidth, hheight]
  exact ⟨inCells_of_between hpos hx.1 hx.2, inCells_of_between hpos hy.1 hy.2⟩

/-- **No bounds made of whole cells cover the box with fewer cells** on an axis. The other bounds
may begin at any whole cell, which is all that is known of their origin. -/
theorem covering_le {other : Bounds K} {column row : ℤ}
    (hother : other.cellSize = respected cellSize)
    (horigin : other.origin = ⟨column * respected cellSize, row * respected cellSize⟩)
    (hlower : other.Covers lower) (hupper : other.Covers upper) :
    (covering lower upper cellSize).cols ≤ other.cols ∧
      (covering lower upper cellSize).rows ≤ other.rows := by
  have hpos := respected_pos cellSize
  obtain ⟨-, -, hwidth, hheight⟩ := covering_eq hcols hrows
  rw [Covers, hother, horigin] at hlower hupper
  rw [UInt32.le_iff_toNat_le, UInt32.le_iff_toNat_le, hwidth, hheight]
  exact ⟨cells_between_le hpos hlower.1 hupper.1, cells_between_le hpos hlower.2 hupper.2⟩

end

/-- **Capping keeps what is covered.** The origin stays, so it is enough to look at one row of cells
at a time. -/
theorem covers_capped {b : Bounds K} {p : Vec2 K} (h : b.Covers p) (maxCells : UInt32) :
    (b.capped maxCells).Covers p := by
  rw [capped]
  split
  next => exact h
  next =>
    have hmost : 0 < (max maxCells 1).toNat := by
      rw [toNat_max]
      exact Nat.lt_of_lt_of_le Nat.one_pos (Nat.le_max_right ..)
    have axis {origin coordinate : K} {count : UInt32} (hcount : count.toNat ≤ b.widest.toNat)
        (hin : InCells origin b.cellSize count.toNat coordinate) :
        InCells origin (b.cellSize * (b.widest.toNat / (max maxCells 1).toNat))
          (fitted (count.toNat * b.cellSize)
            (b.cellSize * (b.widest.toNat / (max maxCells 1).toNat)) (max maxCells 1)).toNat
          coordinate := by
      have hlimit := ceil_widened_le hcount (max maxCells 1).toNat b.cellSize
      have hword := (max maxCells 1).toNat_lt
      have hcells := hin.widened hcount hmost
      rw [toNat_fitted]
      rwa [← Scalar.toNat_toWord (K := K) (by omega)] at hcells
    have hwidest := toNat_widest b
    exact ⟨axis (by omega) h.1, axis (by omega) h.2⟩

/-- **Bounds cover what they promise.** Counts of cells that words can hold are meant.

* Bounds around a camera, capped or not, cover the padded view, and their shape does not depend on
  the centre of the camera.
* Covering bounds cover their box, and no bounds made of whole cells of that size that cover the box
  have fewer cells on an axis.
* Capping any bounds leaves at most as many cells on an axis as the cap allows, and covers every
  position that was covered before. -/
theorem bounds_cover (maxCells : UInt32) (hmost : 1 ≤ maxCells.toNat) :
    (∀ (camera : Camera K) (cellSize padding : K), 1 / 1000000 ≤ camera.zoom →
      ⌈(camera.paddedExtent padding).x / respected cellSize⌉ + 1 < 2 ^ 32 →
      ⌈(camera.paddedExtent padding).y / respected cellSize⌉ + 1 < 2 ^ 32 →
        (∀ p : Vec2 K, |p.x - camera.center.x| ≤ (camera.paddedExtent padding).x / 2 →
          |p.y - camera.center.y| ≤ (camera.paddedExtent padding).y / 2 →
            ((fromCamera camera cellSize padding).capped maxCells).Covers p) ∧
        ∀ center : Vec2 K,
          ((fromCamera { camera with center := center } cellSize padding).capped maxCells).SameShape
            ((fromCamera camera cellSize padding).capped maxCells)) ∧
    (∀ (lower upper : Vec2 K) (cellSize : K), lower.x ≤ upper.x → lower.y ≤ upper.y →
      ⌈upper.x / respected cellSize⌉ - ⌊lower.x / respected cellSize⌋ < 2 ^ 32 →
      ⌈upper.y / respected cellSize⌉ - ⌊lower.y / respected cellSize⌋ < 2 ^ 32 →
        (∀ p : Vec2 K, lower.x ≤ p.x ∧ p.x ≤ upper.x → lower.y ≤ p.y ∧ p.y ≤ upper.y →
          (covering lower upper cellSize).Covers p) ∧
        ∀ (other : Bounds K) (column row : ℤ), other.cellSize = respected cellSize →
          other.origin = ⟨column * respected cellSize, row * respected cellSize⟩ →
          (∀ p : Vec2 K, lower.x ≤ p.x ∧ p.x ≤ upper.x → lower.y ≤ p.y ∧ p.y ≤ upper.y →
            other.Covers p) →
              (covering lower upper cellSize).cols ≤ other.cols ∧
                (covering lower upper cellSize).rows ≤ other.rows) ∧
    ∀ b : Bounds K,
      (b.capped maxCells).cols ≤ maxCells ∧ (b.capped maxCells).rows ≤ maxCells ∧
        ∀ p : Vec2 K, b.Covers p → (b.capped maxCells).Covers p := by
  refine ⟨fun camera cellSize padding hzoom hcols hrows => ⟨fun p hx hy => ?_, fun center => ?_⟩,
    fun lower upper cellSize hx hy hcols hrows => ⟨fun p hpx hpy => ?_, ?_⟩, fun b => ?_⟩
  · exact covers_capped (covers_fromCamera hzoom hcols hrows hx hy) maxCells
  · exact (sameShape_fromCamera camera center cellSize padding).capped maxCells
  · exact covers_covering hcols hrows hpx hpy
  · intro other column row hother horigin hcovers
    exact covering_le hcols hrows hother horigin (hcovers lower ⟨le_rfl, hx⟩ ⟨le_rfl, hy⟩)
      (hcovers upper ⟨hx, le_rfl⟩ ⟨hy, le_rfl⟩)
  · obtain ⟨hcols, hrows⟩ := b.capped_le hmost
    exact ⟨hcols, hrows, fun p h => covers_capped h maxCells⟩

/-- A camera that looks at 200 by 100 around a point, with 100 and 50 more on each side. -/
def wideView : Camera ℚ := ⟨⟨7, 3⟩, ⟨100, 50⟩, 1 / 2⟩

/-- With four cells at most instead of 41 by 21 the far corner of the padded view is still covered;
a box of 34 by 16 is covered by as many cells as are needed, and still so when there are two at
most. -/
theorem bounds_cover_wideView :
    letI := BucketGrid.rationalCurves
    ((fromCamera wideView 10 (1 / 2)).capped 4).Covers ⟨207, 103⟩ ∧
      (covering (⟨1, 2⟩ : Vec2 ℚ) ⟨35, 18⟩ 10).Covers ⟨35, 2⟩ ∧
      (covering (⟨1, 2⟩ : Vec2 ℚ) ⟨35, 18⟩ 10).cols ≤
        (covering (⟨-15, -5⟩ : Vec2 ℚ) ⟨50, 40⟩ 10).cols ∧
      ((covering (⟨1, 2⟩ : Vec2 ℚ) ⟨35, 18⟩ 10).capped 2).Covers ⟨35, 2⟩ := by
  let := BucketGrid.rationalCurves
  obtain ⟨hcamera, hcovering, -⟩ := bounds_cover (K := ℚ) 4 (by decide)
  obtain ⟨-, -, hcapped⟩ := bounds_cover (K := ℚ) 2 (by decide)
  obtain ⟨hview, -⟩ := hcamera wideView 10 (1 / 2) (by norm_num [wideView]) (by decide +kernel)
    (by decide +kernel)
  obtain ⟨hbox, hleast⟩ := hcovering ⟨1, 2⟩ ⟨35, 18⟩ 10 (by norm_num) (by norm_num)
    (by decide +kernel) (by decide +kernel)
  obtain ⟨hlarge, -⟩ := hcovering ⟨-15, -5⟩ ⟨50, 40⟩ 10 (by norm_num) (by norm_num)
    (by decide +kernel) (by decide +kernel)
  have hcorner := hbox ⟨35, 2⟩ (by norm_num) (by norm_num)
  refine ⟨hview ⟨207, 103⟩ (by decide +kernel) (by decide +kernel), hcorner, ?_,
    (hcapped _).2.2 _ hcorner⟩
  refine (hleast _ (-2) (-1) (by decide +kernel) (by decide +kernel) fun p hx hy =>
    hlarge p ⟨?_, ?_⟩ ⟨?_, ?_⟩).1 <;> dsimp only at * <;> linarith

end Bounds

end ParticleDynamics
