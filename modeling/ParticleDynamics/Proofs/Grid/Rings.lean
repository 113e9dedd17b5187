import Mathlib.Data.List.Count
import Mathlib.Data.Set.Function
import Mathlib.Tactic.Ring
import ParticleDynamics.Proofs.Grid.Locating

/-!
# Rings tile the plane

The numbers below the length of a ring and the offsets at its distance are in bijection
(`Ring.bijOn_offset`): that every offset has a number and that none has two is what the list of a
ring's cells says about its four sides. In signed words the offsets are computed without a breach as
long as the length of the ring is such a word (`Ring.signedOffset_eq`).

The rings up to `rings` then make up the square of side `2 * rings + 1`. Every cell of it is visited
once (`Ring.length_walk`, `Ring.count_walk`), and none after one that is further away from the centre
(`Ring.pairwise_walk`).
-/

namespace ParticleDynamics

namespace Ring

/-! ## One ring -/

/-- The places of a ring are no further from the centre than the ring on either axis. -/
theorem offset_mem {ring k : Nat} (hk : k < (length ring).toNat) :
    -(ring : Int) ≤ (offset ring k).x ∧ (offset ring k).x ≤ ring ∧
      -(ring : Int) ≤ (offset ring k).y ∧ (offset ring k).y ≤ ring := by
  have hmem : offset ring k ∈ cells ring := List.mem_map.2 ⟨k, List.mem_range.2 hk, rfl⟩
  have hdistance := mem_cells_iff.1 hmem
  simp only [Cell.distance] at hdistance
  omega

/-- The places of a ring can be computed in signed words if its length is one. -/
theorem signedOffset_eq {ring k : Nat} (hring : 8 * ring < 2 ^ 31)
    (hk : k < (length ring).toNat) : signedOffset ring k = .ok (offset ring k) := by
  obtain ⟨hx, hx', hy, hy'⟩ := offset_mem hk
  exact bind_eq_ok_iff.2 ⟨_, fitSigned_eq_ok (by omega) (by omega),
    bind_eq_ok_iff.2 ⟨_, fitSigned_eq_ok (by omega) (by omega),
      bind_eq_ok_iff.2 ⟨_, fitSigned_eq_ok (by omega) (by omega), rfl⟩⟩⟩

theorem signedLength_eq {ring : Nat} (hring : 8 * ring < 2 ^ 31) :
    signedLength ring = .ok (length ring) := by
  refine fitSigned_eq_ok ?_ ?_ <;>
    · rw [length]
      split <;> omega

/-- The numbers of the places on a ring. -/
def places (ring : Int) : Set Int := {k | 0 ≤ k ∧ k < length ring}

/-- A place of a ring is one of the numbers that its cells are listed by. -/
theorem exists_place {ring : Nat} {k : Int} (hk : k ∈ places ring) :
    ∃ place ∈ List.range (length ring).toNat, Int.ofNat place = k := by
  obtain ⟨hpos, hlt⟩ := hk
  exact ⟨k.toNat, List.mem_range.2 (by omega), Int.toNat_of_nonneg hpos⟩

/-- **A ring is walked one place at a time**: its places and the offsets at its distance are in
bijection. Each of the four sides is a line of its own, and they meet in no corner, since each side
leaves its last corner to the next one. -/
theorem bijOn_offset (ring : Nat) :
    Set.BijOn (offset ring) (places ring) {cell | cell.distance ⟨0, 0⟩ = ring} := by
  refine ⟨fun k hk => ?maps, fun k hk k' hk' heq => ?inj, fun cell hcell => ?surj⟩
  case maps =>
    obtain ⟨place, hmem, rfl⟩ := exists_place hk
    exact mem_cells_iff.1 (List.mem_map.2 ⟨place, hmem, rfl⟩)
  case inj =>
    obtain ⟨place, hmem, rfl⟩ := exists_place hk
    obtain ⟨place', hmem', rfl⟩ := exists_place hk'
    exact congrArg Int.ofNat (List.inj_on_of_nodup_map (nodup_cells ring) hmem hmem' heq)
  case surj =>
    obtain ⟨place, hmem, hoffset⟩ := List.mem_map.1 (mem_cells_iff.2 hcell)
    have hlt := List.mem_range.1 hmem
    exact ⟨Int.ofNat place, ⟨Int.natCast_nonneg place, by rw [Int.ofNat_eq_natCast]; omega⟩,
      hoffset⟩

/-! ## Rings around a centre -/

/-- The cells of the square of side `2 * rings + 1` around a cell. -/
def InSquare (center : Cell) (rings : Nat) (cell : Cell) : Prop :=
  center.x - rings ≤ cell.x ∧ cell.x ≤ center.x + rings ∧
    center.y - rings ≤ cell.y ∧ cell.y ≤ center.y + rings

instance (center : Cell) (rings : Nat) (cell : Cell) : Decidable (InSquare center rings cell) :=
  inferInstanceAs (Decidable (_ ∧ _ ∧ _ ∧ _))

theorem mem_walk_iff_inSquare {center cell : Cell} {rings : Nat} :
    cell ∈ walk center rings ↔ InSquare center rings cell := by
  rw [mem_walk_iff, InSquare]
  simp only [Cell.distance]
  omega

/-- As many cells as the square has: each ring adds eight more than the one before. -/
theorem length_walk (center : Cell) (rings : Nat) :
    (walk center rings).length = (2 * rings + 1) ^ 2 := by
  induction rings with
  | zero => rfl
  | succ rings ih =>
    have hring : (length (rings + 1 : Nat)).toNat = 8 * (rings + 1) := toNat_length (by omega)
    have hlast : ((cells (rings + 1 : Nat)).map center.shift).length = 8 * (rings + 1) := by
      rw [List.length_map, cells, List.length_map, List.length_range, hring]
    rw [walk, List.range_succ, List.flatMap_append, List.length_append, ← walk, ih,
      List.flatMap_singleton, hlast]
    ring

/-- **Each cell of the square is visited once**, and no other cell. A cell belongs to the ring of
its distance, and to no other one. -/
theorem count_walk (center cell : Cell) (rings : Nat) :
    (walk center rings).count cell = if InSquare center rings cell then 1 else 0 := by
  rw [(nodup_walk center rings).count]
  exact if_congr mem_walk_iff_inSquare rfl rfl

/-- The cells of a ring are all at its distance from the centre. -/
theorem distance_of_mem_ring {center cell : Cell} {ring : Nat}
    (h : cell ∈ (cells ring).map center.shift) : cell.distance center = ring := by
  obtain ⟨offset, hoffset, rfl⟩ := List.mem_map.1 h
  rw [distance_shift, mem_cells_iff.1 hoffset]

/-- **Walking the rings leads away from the centre.** -/
theorem pairwise_walk (center : Cell) (rings : Nat) :
    (walk center rings).Pairwise fun cell other =>
      cell.distance center ≤ other.distance center := by
  refine List.pairwise_flatMap.2 ⟨fun ring _ => ?_, ?_⟩
  · refine List.pairwise_of_forall_mem_list fun cell hcell other hother => ?_
    rw [distance_of_mem_ring hcell, distance_of_mem_ring hother]
  · refine List.Pairwise.imp (fun {ring ring'} hlt cell hcell other hother => ?_)
      List.pairwise_lt_range
    rw [distance_of_mem_ring hcell, distance_of_mem_ring hother]
    exact hlt.le

/-- **Rings tile the plane.** Of every ring whose length is a signed word, the length and the
offsets are computed without a breach, and the numbers below the length are in bijection with the
offsets at the ring's distance. The rings up to any number around any centre have together as many
places as the square around the centre has cells, and visit each of them once. -/
theorem rings_tile :
    (∀ ring : Int, 0 ≤ ring → 8 * ring < 2 ^ 31 →
      signedLength ring = .ok (length ring) ∧
      (∀ k ∈ places ring, signedOffset ring k = .ok (offset ring k)) ∧
      Set.BijOn (offset ring) (places ring) {cell | cell.distance ⟨0, 0⟩ = ring}) ∧
    ∀ (center : Cell) (rings : Nat),
      (walk center rings).length = (2 * rings + 1) ^ 2 ∧
      ∀ cell, (walk center rings).count cell = if InSquare center rings cell then 1 else 0 := by
  refine ⟨fun ring hring hfits => ?_, fun center rings =>
    ⟨length_walk center rings, fun cell => count_walk center cell rings⟩⟩
  obtain ⟨ring, rfl⟩ := Int.eq_ofNat_of_zero_le hring
  have hword : 8 * ring < 2 ^ 31 := by omega
  refine ⟨signedLength_eq hword, fun k hk => ?_, ?_⟩
  · obtain ⟨place, hmem, rfl⟩ := exists_place hk
    exact signedOffset_eq hword (List.mem_range.1 hmem)
  · simpa only [Int.natCast_inj] using bijOn_offset ring

/-- The largest ring that there is, at its last place, and a corner of a small square. -/
theorem rings_tile_largest :
    ((0 : Int) ≤ 268435455 ∧ (8 : Int) * 268435455 < 2 ^ 31) ∧
      signedLength 268435455 = .ok 2147483640 ∧
      signedOffset 268435455 2147483639 = .ok ⟨-268435455, -268435454⟩ ∧
      (walk ⟨5, 7⟩ 2).count ⟨7, 5⟩ = 1 := by
  obtain ⟨hlength, hoffset, -⟩ := rings_tile.1 268435455 (by decide) (by decide)
  exact ⟨by decide, hlength, hoffset 2147483639 ⟨by decide, by decide⟩,
    (rings_tile.2 ⟨5, 7⟩ 2).2 ⟨7, 5⟩⟩

end Ring

end ParticleDynamics
