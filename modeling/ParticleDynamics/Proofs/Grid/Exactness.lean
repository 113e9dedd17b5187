import Mathlib.Algebra.Order.Field.Basic
import Mathlib.Data.Rat.Floor
import Mathlib.Data.Rat.Sqrt
import Mathlib.Tactic.NormNum
import ParticleDynamics.Proofs.Grid.Buckets
import ParticleDynamics.Proofs.Scalar.Exact

/-!
# Queries are exact

Read over an ordered field, a query of the bucket index finds the live particles within the radius
and no other, whatever the bounds and the edge length of a cell are (`BucketGrid.query_exact`).

What could go wrong is that a particle within the radius lies in a cell that the query does not
visit. It does not: positions within a distance of `radius` lie in cells at most
`⌈radius / cellSize⌉` apart, and neither the nearest cells of the grid, nor the limits of a machine
integer, take two cells further apart than they were. Limiting the number of rings to the longer
axis leaves no cell out either, because the centre of the search is a cell of the grid.
-/

namespace ParticleDynamics

open Scalar (saturate)

variable {K : Type} [Field K] [LinearOrder K] [IsStrictOrderedRing K] [FloorRing K]
  [Scalar.Curves K]

/-- Positions within a radius are within it along each axis. -/
theorem abs_sub_le_of_distanceSquared_le {p q : Vec2 K} {radius : K} (hradius : 0 ≤ radius)
    (h : p.distanceSquared q ≤ radius * radius) : |p.x - q.x| ≤ radius ∧ |p.y - q.y| ≤ radius := by
  have hsum : (p.x - q.x) * (p.x - q.x) + (p.y - q.y) * (p.y - q.y) ≤ radius * radius := h
  have hx := mul_self_nonneg (p.x - q.x)
  have hy := mul_self_nonneg (p.y - q.y)
  constructor
  · exact abs_le_of_sq_le_sq (by nlinarith) hradius
  · exact abs_le_of_sq_le_sq (by nlinarith) hradius

namespace Bounds

variable {b : Bounds K}

/-- The cell of a position before it is limited to the grid. -/
theorem freeCell_eq (position : Vec2 K) :
    b.freeCell position =
      ⟨saturate ⌊(position.x - b.origin.x) / b.cellSize⌋,
        saturate ⌊(position.y - b.origin.y) / b.cellSize⌋⟩ := by
  have axis (a : K) : Scalar.toSigned (Scalar.floor a) = saturate ⌊a⌋ :=
    congrArg saturate (Scalar.truncate_intCast ⌊a⌋)
  exact congrArg₂ Cell.mk (axis _) (axis _)

/-- **Positions within a radius lie in cells that are no further apart than the radius**, counted in
cells and rounded up. -/
theorem distance_freeCell_le (hcell : 0 < b.cellSize) {p q : Vec2 K} {radius : K}
    (hradius : 0 ≤ radius) (h : p.distanceSquared q ≤ radius * radius) :
    (b.freeCell p).distance (b.freeCell q) ≤ ⌈radius / b.cellSize⌉.toNat := by
  obtain ⟨hx, hy⟩ := abs_sub_le_of_distanceSquared_le hradius h
  have axis {m n o : K} (hmn : |m - n| ≤ radius) :
      (saturate ⌊(m - o) / b.cellSize⌋ - saturate ⌊(n - o) / b.cellSize⌋).natAbs ≤
        ⌈radius / b.cellSize⌉.toNat := by
    have hscaled : |(m - o) / b.cellSize - (n - o) / b.cellSize| ≤ radius / b.cellSize := by
      rw [← sub_div, sub_sub_sub_cancel_right, abs_div, abs_of_pos hcell]
      exact div_le_div_of_nonneg_right hmn hcell.le
    refine Nat.le_trans ?_ (Scalar.natAbs_floor_sub_le hscaled)
    simp only [saturate]
    omega
  rw [freeCell_eq, freeCell_eq]
  exact max_le (axis hx) (axis hy)

/-- The number of rings of a search. -/
theorem ringsFor_eq (hcell : 0 < b.cellSize) (hwidest : b.widest.toNat < 2 ^ 31) {radius : K}
    (hradius : 0 ≤ radius) :
    b.ringsFor radius = .ok (min ⌈radius / b.cellSize⌉.toNat b.widest.toNat) := by
  obtain ⟨n, hn⟩ := Int.eq_ofNat_of_zero_le (Int.ceil_nonneg (div_nonneg hradius hcell.le))
  have hlimited : Scalar.clamp (Scalar.ceil (radius / b.cellSize)) 0 (Scalar.ofWord b.widest) =
      .ok (((min n b.widest.toNat : ℕ) : ℤ) : K) := by
    have hceil : Scalar.ceil (radius / b.cellSize) = (n : K) := by
      change ((⌈radius / b.cellSize⌉ : ℤ) : K) = n
      rw [hn, Int.cast_natCast]
    have hword : Scalar.ofWord b.widest = (b.widest.toNat : K) := rfl
    rw [hceil, hword, Scalar.clamp, if_pos (Nat.cast_nonneg _)]
    dsimp only
    rw [if_neg (not_lt_of_ge (Nat.cast_nonneg n))]
    congr 1
    split
    next hlt => rw [min_eq_right (Nat.cast_lt.1 hlt).le, Int.cast_natCast]
    next hle => rw [min_eq_left (Nat.cast_le.1 (not_lt.1 hle)), Int.cast_natCast]
  refine bind_eq_ok_iff.2 ⟨_, hlimited, congrArg Except.ok ?_⟩
  change (saturate (Scalar.truncate _)).toNat = _
  rw [Scalar.truncate_intCast, hn, saturate]
  omega

/-- **No cell is left out**: a position within the radius of a point lies in a cell of the grid that
is within the rings of a search around that point. -/
theorem distance_nearest_le_rings (hproper : b.Proper) (hcell : 0 < b.cellSize) {p q : Vec2 K}
    {radius : K} (hradius : 0 ≤ radius) (h : p.distanceSquared q ≤ radius * radius) :
    (b.nearest (b.freeCell p)).distance (b.nearest (b.freeCell q)) ≤
      min ⌈radius / b.cellSize⌉.toNat b.widest.toNat := by
  refine le_min ?_ ?_
  · exact (b.distance_nearest_le _ _).trans (distance_freeCell_le hcell hradius h)
  · obtain ⟨hx, hx', hy, hy'⟩ := b.has_nearest hproper (b.freeCell p)
    obtain ⟨hx₂, hx₂', hy₂, hy₂'⟩ := b.has_nearest hproper (b.freeCell q)
    rw [toNat_widest, Cell.distance]
    omega

end Bounds

namespace BucketGrid

/-- **What a built index answers**: each live particle within the radius once, except the one to
leave out, and nothing else. The axes are short enough for the rings of any radius, and whatever is
found is told apart by words as well. -/
theorem Built.exists_query {b : BucketGrid K} {particles : Array (Particle K)}
    (hb : b.Built particles) (hcell : 0 < b.bounds.cellSize) (hcols : b.bounds.cols.toNat < 2 ^ 15)
    (hrows : b.bounds.rows.toNat < 2 ^ 15) (point : Vec2 K) {radius : K} (hradius : 0 ≤ radius)
    (exclude : Option UInt32) :
    ∃ found, b.query point radius exclude = .ok found ∧ found.toList.Nodup ∧
      ∀ index : UInt32, index ∈ found ↔
        some index ≠ exclude ∧ ∃ p, particles[index.toNat]? = some p ∧ p.isAlive = true ∧
          p.position.distanceSquared point ≤ radius * radius := by
  have hproper : b.bounds.Proper := hb.proper
  have hwidest : b.bounds.widest.toNat < 2 ^ 15 := by
    rw [Bounds.toNat_widest]
    omega
  have hrings := Bounds.ringsFor_eq hcell (by omega) hradius
  have hquery := hb.query_eq point exclude hrings (by omega) (by omega)
  have hreach : ∀ cell ∈ (b.bounds.reach (b.bounds.nearest (b.bounds.freeCell point))
      (min ⌈radius / b.bounds.cellSize⌉.toNat b.bounds.widest.toNat)).cells,
      b.bounds.Has cell := fun cell hcell => (Bounds.mem_cells_reach_iff.1 hcell).1
  refine ⟨_, hquery, ?_, fun index => ?_⟩
  · -- indices below the number of particles are told apart as words too
    refine nodup_map_toUInt32 (fun index hindex => ?_)
      (Bounds.nodup_gather (Window.nodup_cells _) hreach)
    exact Nat.lt_of_lt_of_le (Bounds.lt_size_of_mem_gather hindex) hb.few
  · rw [List.mem_toArray, List.mem_map]
    constructor
    · -- what was found lies in a cell of the grid, so it is live, and the search kept it
      rintro ⟨i, hi, rfl⟩
      have hlt := Bounds.lt_size_of_mem_gather hi
      obtain ⟨hkeeps, cell, -, hfound⟩ := (Bounds.mem_gather_iff hproper hreach).1 hi
      obtain ⟨hexclude, p, hp, hclose⟩ := Search.keeps_iff.1 hkeeps
      obtain ⟨p', hp', halive, -⟩ := (Bounds.cellAt_eq_some_iff hproper).1 hfound
      obtain rfl := Option.some.inj (hp.symm.trans hp')
      rw [toNat_toUInt32 (Nat.lt_of_lt_of_le hlt hb.few)]
      exact ⟨hexclude, p, hp, halive, hclose⟩
    · -- a live particle within the radius lies in a cell that was visited
      rintro ⟨hexclude, p, hp, halive, hclose⟩
      have hword : index.toNat.toUInt32 = index := UInt32.ofNat_toNat
      refine ⟨index.toNat, (Bounds.mem_gather_iff hproper hreach).2 ⟨?_, ?_⟩, hword⟩
      · rw [Search.keeps_iff, hword]
        exact ⟨hexclude, p, hp, hclose⟩
      · refine ⟨_, Bounds.mem_cells_reach_iff.2 ⟨b.bounds.has_nearest hproper _, ?_⟩,
          (Bounds.cellAt_eq_some_iff hproper).2 ⟨p, hp, halive, rfl⟩⟩
        exact Bounds.distance_nearest_le_rings hproper hcell hradius hclose

/-- **Queries are exact.** Over bounds of fewer than `2^15` cells of positive edge length on each
axis, whatever was indexed before, an index can be built from any particles that words can count,
and a query finds each live particle within the radius once, except the one to leave out, and
nothing else. What it finds does not depend on the bounds. -/
theorem query_exact {b : BucketGrid K} (hb : b.Reachable) (hcell : 0 < b.bounds.cellSize)
    (hcols : 1 ≤ b.bounds.cols.toNat ∧ b.bounds.cols.toNat < 2 ^ 15)
    (hrows : 1 ≤ b.bounds.rows.toNat ∧ b.bounds.rows.toNat < 2 ^ 15)
    (particles : Array (Particle K)) (hcount : particles.size ≤ 2 ^ 32) (point : Vec2 K)
    (radius : K) (hradius : 0 ≤ radius) (exclude : Option UInt32) :
    ∃ b' found, b.build particles = .ok b' ∧ b'.query point radius exclude = .ok found ∧
      found.toList.Nodup ∧
      ∀ index : UInt32, index ∈ found ↔
        some index ≠ exclude ∧ ∃ p, particles[index.toNat]? = some p ∧ p.isAlive = true ∧
          p.position.distanceSquared point ≤ radius * radius := by
  have hproper : b.bounds.Proper := ⟨hcols.1, by omega, hrows.1, by omega⟩
  obtain ⟨b', hbuild, hbounds, hb'⟩ := exists_build hb.tidy hproper hcount
  rw [← hbounds] at hcell hcols hrows
  obtain ⟨found, hquery, hexact⟩ := hb'.exists_query hcell hcols.2 hrows.2 point hradius exclude
  exact ⟨b', found, hbuild, hquery, hexact⟩

/-- Square roots, cosines and sines of rational numbers, where they are rational: the cosine and the
sine of an angle only at zero. -/
@[reducible]
def rationalCurves : Scalar.Curves ℚ where
  sqrt := Rat.sqrt
  cos := fun _ => 1
  sin := fun _ => 0

/-- A particle far outside a grid of one cell is found from another place outside. -/
theorem query_exact_outside :
    letI := rationalCurves
    ∃ b' found,
      (ofBounds (⟨⟨0, 0⟩, 1, 1, 1⟩ : Bounds ℚ)).build
        #[{ (Birth.standard : Birth ℚ).withId 7 with position := ⟨10, -5⟩ }] = .ok b' ∧
      b'.query ⟨12, -5⟩ 3 none = .ok found ∧ 0 ∈ found := by
  let := rationalCurves
  have hallocate : allocate (⟨⟨0, 0⟩, 1, 1, 1⟩ : Bounds ℚ) = .ok (ofBounds ⟨⟨0, 0⟩, 1, 1, 1⟩) := rfl
  obtain ⟨b', found, hbuild, hquery, -, hfound⟩ :=
    query_exact (.allocate hallocate) one_pos (by decide) (by decide)
      #[{ (Birth.standard : Birth ℚ).withId 7 with position := ⟨10, -5⟩ }] (by decide) ⟨12, -5⟩ 3
      (by norm_num) none
  refine ⟨b', found, hbuild, hquery, (hfound 0).2 ⟨nofun, _, rfl, ?_, ?_⟩⟩
  · decide
  · change (10 - 12 : ℚ) * (10 - 12) + (-5 - -5) * (-5 - -5) ≤ 3 * 3
    norm_num

end BucketGrid

end ParticleDynamics
