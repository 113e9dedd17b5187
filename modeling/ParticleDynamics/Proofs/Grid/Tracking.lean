import ParticleDynamics.Proofs.Grid.Buckets
import ParticleDynamics.Proofs.Single.Growth

/-!
# How many cells a tracked grid has

However strange a camera is, the bounds that are derived from it have a cell on each axis: one is
added to a number that is at least one, and the cap never goes below one cell. And they have no
more cells than the cap allows. So tracked bounds are **sized** (`Tracker.sized_derive`), and an
index that follows a camera stays within its cap on the way (`BucketGrid.Limited`).

With fewer than `2^15` cells allowed on an axis there is room for all buckets, and creating an index
and following a camera cannot fail (`BucketGrid.exists_ofCamera`, `BucketGrid.Limited.exists_track`).
-/

namespace ParticleDynamics

variable {α : Type} [Scalar α]

namespace Bounds

/-! ## Sized bounds -/

omit [Scalar α] in
/-- Bounds with a cell on each axis, and no more than the given number of them. -/
@[mk_iff]
structure Sized (b : Bounds α) (most : Nat) : Prop where
  one_le_cols : 1 ≤ b.cols.toNat
  cols_le : b.cols.toNat ≤ most
  one_le_rows : 1 ≤ b.rows.toNat
  rows_le : b.rows.toNat ≤ most

instance (b : Bounds α) (most : Nat) : Decidable (b.Sized most) :=
  decidable_of_iff' _ (sized_iff b most)

omit [Scalar α] in
theorem Sized.proper {b : Bounds α} {most : Nat} (h : b.Sized most) (hmost : most < 2 ^ 31) :
    b.Proper :=
  ⟨h.one_le_cols, Nat.lt_of_le_of_lt h.cols_le hmost, h.one_le_rows,
    Nat.lt_of_le_of_lt h.rows_le hmost⟩

omit [Scalar α] in
/-- **There is room for the buckets** of bounds with fewer than `2^15` cells on each axis. -/
theorem Sized.allocate_eq {b : Bounds α} {most : Nat} (h : b.Sized most) (hmost : most < 2 ^ 15) :
    BucketGrid.allocate b = .ok (BucketGrid.ofBounds b) := by
  have hcells : b.cellCount ≤ most * most := Nat.mul_le_mul h.cols_le h.rows_le
  have hfew : most * most ≤ 32767 * 32767 := Nat.mul_le_mul (by omega) (by omega)
  have hroom : b.cellCount * BucketGrid.bucketBytes ≤ mostBytes := by
    rw [BucketGrid.bucketBytes, mostBytes]
    omega
  rw [BucketGrid.allocate, reserve, if_pos hroom]
  rfl

theorem toNat_fitted (extent cellSize : α) (most : UInt32) :
    (fitted extent cellSize most).toNat =
      min (max (Scalar.toWord (Scalar.ceil (extent / cellSize))).toNat 1) most.toNat := by
  rw [fitted, toNat_min, toNat_max]
  rfl

/-- A fitted axis has a cell, and no more than the limit. -/
theorem toNat_fitted_mem (extent cellSize : α) {most : UInt32} (hmost : 1 ≤ most.toNat) :
    1 ≤ (fitted extent cellSize most).toNat ∧ (fitted extent cellSize most).toNat ≤ most.toNat := by
  have hmin := toNat_fitted extent cellSize most
  omega

/-- **Capped bounds are sized**, if there was a cell on each axis. -/
theorem sized_capped {b : Bounds α} (hcols : 1 ≤ b.cols.toNat) (hrows : 1 ≤ b.rows.toNat)
    (maxCells : UInt32) : (b.capped maxCells).Sized (max maxCells.toNat 1) := by
  have hmost : (max maxCells 1).toNat = max maxCells.toNat 1 := toNat_max maxCells 1
  rw [capped]
  split
  next hle =>
    have hwidest := toNat_widest b
    have hle' := UInt32.le_iff_toNat_le.1 hle
    exact ⟨hcols, by omega, hrows, by omega⟩
  next =>
    have hpos : 1 ≤ (max maxCells 1).toNat := by omega
    rw [← hmost]
    exact ⟨(toNat_fitted_mem _ _ hpos).1, (toNat_fitted_mem _ _ hpos).2,
      (toNat_fitted_mem _ _ hpos).1, (toNat_fitted_mem _ _ hpos).2⟩

end Bounds

/-! ## Derived bounds -/

/-- The larger one of a number and one. -/
theorem one_le_larger (x : Single) : 1 ≤ if 1 < x then x else 1 := by
  split
  next h => exact Single.le_of_lt h
  next => decide

/-- **Derived bounds are sized**, whatever bits the camera and the settings have. -/
theorem Tracker.sized_derive (camera : Camera Single) (cellSize padding : Single)
    (maxCells : UInt32) :
    (Tracker.derive camera cellSize padding maxCells).Sized (max maxCells.toNat 1) :=
  Bounds.sized_capped (Single.one_le_toWord_add_one (one_le_larger _))
    (Single.one_le_toWord_add_one (one_le_larger _)) maxCells

/-- **All that a tracker can do when it follows a camera**: it stays as it is when the camera stays
close, and otherwise takes the camera for its anchor, and new bounds if they differ. -/
theorem Tracker.track_cases (t : Tracker α) (camera : Camera α) :
    t.keeps camera = true ∧ t.track camera = (false, t) ∨
      t.keeps camera = false ∧
        ((Tracker.derive camera t.cellSize t.padding t.maxCells == t.bounds) = true ∧
            t.track camera = (false, { t with anchor := camera }) ∨
          (Tracker.derive camera t.cellSize t.padding t.maxCells == t.bounds) = false ∧
            t.track camera = (true, { t with
              anchor := camera
              bounds := Tracker.derive camera t.cellSize t.padding t.maxCells })) := by
  cases hkeeps : t.keeps camera with
  | true => exact .inl ⟨rfl, Tracker.track_of_keeps hkeeps⟩
  | false =>
    cases hsame : Tracker.derive camera t.cellSize t.padding t.maxCells == t.bounds with
    | true => exact .inr ⟨rfl, .inl ⟨rfl, by simp [Tracker.track, hkeeps, hsame]⟩⟩
    | false => exact .inr ⟨rfl, .inr ⟨rfl, by simp [Tracker.track, hkeeps, hsame]⟩⟩

namespace BucketGrid

/-! ## Indexes within their cap -/

omit [Scalar α] in
/-- An index within its cap, which its tracker knows. -/
structure Limited (g : BucketGrid α) (maxCells : UInt32) : Prop where
  sized : g.bounds.Sized (max maxCells.toNat 1)
  maxCells_eq : ∀ tracker, g.tracker = some tracker → tracker.maxCells = maxCells

omit [Scalar α] in
/-- Building keeps an index within its cap, because it keeps bounds and tracker. -/
theorem Limited.of_eq {g g' : BucketGrid α} {maxCells : UInt32} (h : g.Limited maxCells)
    (hbounds : g'.bounds = g.bounds) (htracker : g'.tracker = g.tracker) : g'.Limited maxCells :=
  ⟨hbounds ▸ h.sized, htracker ▸ h.maxCells_eq⟩

omit [Scalar α] in
theorem Limited.proper {g : BucketGrid α} {maxCells : UInt32} (h : g.Limited maxCells)
    (hcap : maxCells.toNat < 2 ^ 15) : g.bounds.Proper :=
  h.sized.proper (by omega)

variable {maxCells : UInt32} (hcap : maxCells.toNat < 2 ^ 15)

include hcap

/-- **An index that follows a camera can be created**, whatever bits the camera and the settings
have. -/
theorem exists_ofCamera (camera : Camera Single) (cellSize padding : Single) :
    ∃ g, ofCamera camera cellSize padding maxCells = .ok g ∧ g.Limited maxCells := by
  let tracker := Tracker.create camera cellSize padding maxCells
  have hsized := Tracker.sized_derive camera cellSize padding maxCells
  have hroom : allocate tracker.bounds = .ok (ofBounds tracker.bounds) :=
    hsized.allocate_eq (by omega)
  refine ⟨{ ofBounds tracker.bounds with tracker := some tracker },
    bind_eq_ok_iff.2 ⟨_, hroom, rfl⟩, hsized, fun other hother => ?_⟩
  obtain rfl := Option.some.inj hother
  rfl

/-- **An index within its cap can follow every camera**, and stays within its cap. -/
theorem Limited.exists_track {g : BucketGrid Single} (h : g.Limited maxCells)
    (camera : Camera Single) :
    ∃ changed g', g.track camera = .ok (changed, g') ∧ g'.Limited maxCells := by
  rw [track]
  split
  next => exact ⟨false, g, rfl, h⟩
  next tracker htracker =>
    have hmax := h.maxCells_eq tracker htracker
    rcases tracker.track_cases camera with ⟨-, hkeep⟩ | ⟨-, ⟨-, hkeep⟩ | ⟨-, hnew⟩⟩
    · rw [hkeep]
      exact ⟨false, _, rfl, h.sized, fun other hother => Option.some.inj hother ▸ hmax⟩
    · rw [hkeep]
      exact ⟨false, _, rfl, h.sized, fun other hother => Option.some.inj hother ▸ hmax⟩
    · have hsized : (Tracker.derive camera tracker.cellSize tracker.padding
          tracker.maxCells).Sized (max maxCells.toNat 1) := by
        rw [hmax]
        exact Tracker.sized_derive ..
      rw [hnew]
      exact ⟨true, _, bind_eq_ok_iff.2 ⟨_, hsized.allocate_eq (by omega), rfl⟩, hsized,
        fun other hother => Option.some.inj hother ▸ hmax⟩

end BucketGrid

end ParticleDynamics
