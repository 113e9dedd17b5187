import ParticleDynamics.Proofs.Grid.Slots
import ParticleDynamics.Proofs.Single.Order

/-!
# The two indexes agree

The bucket index scans a window row by row, the slot index walks along rings, and both keep what
lies close enough to the centre. They visit the same cells, since a window consists of the cells
within some rings, and each of them once. So over the same particles both find the same indices, up
to order and up to those that found no slot.

The number of rings is computed with machine numbers, and is at most the longer axis of the grid
whatever the radius and the edge length of a cell are (`Bounds.exists_ringsFor`). No law of exact
arithmetic is used for positions: both indexes ask the same question about the same positions, and
the answer may well be that of a position that is not a number.
-/

namespace ParticleDynamics

namespace Bounds

/-- **A search has a number of rings**, whatever its radius, and it is at most the longer axis. The
clamp breaks only on bounds that are not numbers, and both of its bounds are counts. -/
theorem exists_ringsFor {b : Bounds Single} (hcols : b.cols.toNat < 2 ^ 15)
    (hrows : b.rows.toNat < 2 ^ 15) (radius : Single) :
    ∃ rings, b.ringsFor radius = .ok rings ∧ rings < 2 ^ 15 := by
  have hwidest : b.widest.toNat < 2 ^ 15 := by
    rw [toNat_widest]
    omega
  have hword : b.widest.toNat < 2 ^ 24 := by omega
  obtain ⟨limited, hlimited, hle⟩ :=
    Single.toSigned_clamp (Scalar.ceil (radius / b.cellSize)) hword
  refine ⟨limited.toSigned.toNat, bind_eq_ok_iff.2 ⟨limited, hlimited, rfl⟩, ?_⟩
  omega

end Bounds

namespace SlotGrid

section

variable {α : Type} [Scalar α] {g : SlotGrid α} {particles : Array (Particle α)}

omit [Scalar α] in
/-- The walk along the rings and the window have the same cells. -/
theorem mem_walked_iff (hproper : g.bounds.Proper) {center cell : Cell} {rings : Nat} :
    cell ∈ g.walked center rings ↔ cell ∈ (g.bounds.reach center rings).cells := by
  rw [walked, List.mem_filter, contains_iff hproper, Ring.mem_walk_iff,
    Bounds.mem_cells_reach_iff, and_comm]

/-- **Slots yield what buckets yield, as far as it is stored.** Both go through the same cells, one
row after the other and one ring after the other, so all that differs is the order in which indices
come. -/
theorem perm_gather (hproper : g.bounds.Proper) (particles : Array (Particle α))
    (passes stored : Nat → Bool) (center : Cell)
    (rings : Nat) :
    (g.bounds.gather particles (fun index => passes index && stored index)
        (g.walked center rings)).Perm
      ((g.bounds.gather particles passes (g.bounds.reach center rings).cells).filter stored) := by
  have hreach : ∀ cell ∈ (g.bounds.reach center rings).cells, g.bounds.Has cell :=
    fun cell hcell => (Bounds.mem_cells_reach_iff.1 hcell).1
  have hwalked : ∀ cell ∈ g.walked center rings, g.bounds.Has cell := fun cell hcell =>
    hreach cell ((mem_walked_iff hproper).1 hcell)
  refine (List.perm_ext_iff_of_nodup ?_ ?_).2 fun index => ?_
  · exact Bounds.nodup_gather ((Ring.nodup_walk center rings).filter _) hwalked
  · exact (Bounds.nodup_gather (Window.nodup_cells _) hreach).filter _
  · rw [Bounds.mem_gather_iff hproper hwalked, List.mem_filter,
      Bounds.mem_gather_iff hproper hreach, Bool.and_eq_true]
    simp only [mem_walked_iff hproper]
    rw [and_right_comm]

/-- What is gathered is live. -/
theorem isLiveAt_of_mem_gather {b : Bounds α} (hproper : b.Proper) {passes : Nat → Bool}
    {cells : List Cell} (hhas : ∀ cell ∈ cells, b.Has cell) {index : Nat}
    (h : index ∈ b.gather particles passes cells) : Particle.isLiveAt particles index = true := by
  obtain ⟨-, cell, -, hcell⟩ := (Bounds.mem_gather_iff hproper hhas).1 h
  rw [← Bounds.isSome_cellAt hproper, hcell]
  rfl

/-- What the two indexes find, as lists of indices, over any scalar that gives a search its
rings. -/
theorem exists_found {bounds : Bounds α} (hproper : bounds.Proper) {maxPerCell : UInt32}
    (hfew : particles.size ≤ 2 ^ 32) {b : BucketGrid α} (hb : b.Reachable)
    (hbounds : b.bounds = bounds) (hg : Reachable bounds maxPerCell g) (point : Vec2 α) {radius : α}
    {rings : Nat} (exclude : Option UInt32) (hrings : bounds.ringsFor radius = .ok rings)
    (hcols : bounds.cols.toNat + rings ≤ 2 ^ 31) (hrows : bounds.rows.toNat + rings ≤ 2 ^ 31) :
    ∃ (b' : BucketGrid α) (g' : SlotGrid α) (found found' : List Nat),
      b.build particles = .ok b' ∧ g.build particles = .ok g' ∧
      b'.query point radius exclude = .ok (found.map Nat.toUInt32).toArray ∧
      g'.query point radius exclude = .ok (found'.map Nat.toUInt32).toArray ∧
      found.Nodup ∧
      (∀ index ∈ found, index < particles.size ∧ Particle.isLiveAt particles index = true) ∧
      found'.Perm (found.filter (bounds.stored particles (max maxPerCell 1).toNat)) ∧
      g'.bounds = bounds ∧ g'.capacity = max maxPerCell 1 ∧ g'.Built particles := by
  obtain ⟨hgbounds, hcapacity⟩ := hg.shape
  obtain ⟨b', hbuild, hbounds', hb'⟩ :=
    BucketGrid.exists_build hb.tidy (hbounds ▸ hproper) hfew
  obtain ⟨g', hbuild', hgbounds', hcapacity', hg'⟩ :=
    exists_build g (hgbounds ▸ hproper) hfew
  rw [hbounds] at hbounds'
  rw [hgbounds] at hgbounds'
  rw [hcapacity] at hcapacity'
  have hquery := hb'.query_eq point exclude (by rw [hbounds']; exact hrings)
    (by rw [hbounds']; exact hcols) (by rw [hbounds']; exact hrows)
  have hquery' := hg'.query_eq point exclude (by rw [hgbounds']; exact hrings)
  have hperm := perm_gather hg'.proper particles
    (BucketGrid.Search.keeps ⟨point, radius * radius, exclude⟩ particles)
    (bounds.stored particles (max maxPerCell 1).toNat)
    (bounds.nearest (bounds.freeCell point)) rings
  rw [hbounds'] at hquery
  rw [hgbounds', hcapacity'] at hquery'
  rw [hgbounds'] at hperm
  have hreach : ∀ cell ∈ (bounds.reach (bounds.nearest (bounds.freeCell point)) rings).cells,
      bounds.Has cell := fun cell hcell => (Bounds.mem_cells_reach_iff.1 hcell).1
  refine ⟨b', g', _, _, hbuild, hbuild', hquery, hquery',
    Bounds.nodup_gather (Window.nodup_cells _) hreach, fun index hindex => ⟨?_, ?_⟩, hperm,
    hgbounds', hcapacity', hg'⟩
  · exact Bounds.lt_size_of_mem_gather hindex
  · exact isLiveAt_of_mem_gather hproper hreach hindex

end

/-- **Both indexes find the same.** Over bounds of fewer than `2^15` cells on each axis, whatever
the two indexes held before, both can be built from the same particles and asked the same question.
The slots then hold the live indices in whose cell fewer than `max 1 maxPerCell` smaller live indices
fall; the slot index finds, without repetition, the indices among these that the bucket index finds;
and it has dropped as many particles as are alive without being stored. -/
theorem queries_agree (bounds : Bounds Single)
    (hcols : 1 ≤ bounds.cols.toNat ∧ bounds.cols.toNat < 2 ^ 15)
    (hrows : 1 ≤ bounds.rows.toNat ∧ bounds.rows.toNat < 2 ^ 15) (maxPerCell : UInt32)
    (particles : Array (Particle Single)) (hcount : particles.size < 2 ^ 32)
    {b : BucketGrid Single} (hb : b.Reachable) (hbounds : b.bounds = bounds)
    {g : SlotGrid Single} (hg : Reachable bounds maxPerCell g)
    (point : Vec2 Single) (radius : Single) (exclude : Option UInt32) :
    ∃ b' g' inBuckets inSlots,
      b.build particles = .ok b' ∧ g.build particles = .ok g' ∧
      b'.query point radius exclude = .ok inBuckets ∧
      g'.query point radius exclude = .ok inSlots ∧
      (∀ index < particles.size, g'.Stores index.toUInt32 ↔
        bounds.stored particles (max maxPerCell 1).toNat index = true) ∧
      inSlots.toList.Nodup ∧
      inSlots.toList.Perm (inBuckets.toList.filter fun index =>
        bounds.stored particles (max maxPerCell 1).toNat index.toNat) ∧
      g'.dropped = ((List.range particles.size).filter fun index =>
        Particle.isLiveAt particles index &&
          !bounds.stored particles (max maxPerCell 1).toNat index).length ∧
      (g'.dropped = 0 → inSlots.toList.Perm inBuckets.toList) := by
  have hproper : bounds.Proper := ⟨hcols.1, by omega, hrows.1, by omega⟩
  obtain ⟨rings, hrings, hfew⟩ := Bounds.exists_ringsFor hcols.2 hrows.2 radius
  obtain ⟨b', g', found, found', hbuild, hbuild', hquery, hquery', hnodup, hfound, hperm, hgbounds,
    hcapacity, hg'⟩ :=
    exists_found hproper hcount.le hb hbounds hg point exclude hrings (by omega) (by omega)
  have hlt : ∀ index ∈ found, index < 2 ^ 32 := fun index hindex =>
    Nat.lt_trans (hfound index hindex).1 hcount
  have hlt' : ∀ index ∈ found', index < 2 ^ 32 := fun index hindex =>
    hlt index (List.mem_filter.1 (hperm.mem_iff.1 hindex)).1
  have hstores {index : Nat} (hindex : index < particles.size) := hg'.stores_iff hindex
  have hdropped := hg'.holds.dropped_eq
  rw [hgbounds, hcapacity] at hdropped hstores
  refine ⟨b', g', _, _, hbuild, hbuild', hquery, hquery', fun index hindex => hstores hindex,
    ?_, ?_, hdropped, fun hnone => ?_⟩
  · exact nodup_map_toUInt32 hlt' (hperm.nodup_iff.2 (hnodup.filter _))
  · rw [List.toList_toArray, List.toList_toArray, filter_map_toUInt32 hlt]
    exact hperm.map _
  · -- nothing is left out when no live index lacks a slot
    have hall : found.filter (bounds.stored particles (max maxPerCell 1).toNat) = found := by
      refine List.filter_eq_self.2 fun index hindex => ?_
      obtain ⟨hsmall, hlive⟩ := hfound index hindex
      rw [← hgbounds, ← hcapacity]
      exact hg'.holds.stored_of_dropped_eq_zero hnone hsmall hlive
    rw [hall] at hperm
    exact hperm.map _

/-- A grid of a single cell. -/
def singleCell : Bounds Single := ⟨⟨0, 0⟩, 1, 1, 1⟩

/-- Two particles in one place. -/
def twins : Array (Particle Single) := #[Birth.standard.withId 0, Birth.standard.withId 1]

/-- With one slot for the two of them, one of the twins is dropped. -/
theorem queries_agree_on_twins :
    ∃ b' g' inBuckets inSlots,
      (BucketGrid.ofBounds singleCell).build twins = .ok b' ∧
      (create singleCell 1).build twins = .ok g' ∧
      b'.query ⟨0, 0⟩ 1 none = .ok inBuckets ∧ g'.query ⟨0, 0⟩ 1 none = .ok inSlots ∧
      inSlots.toList.Perm (inBuckets.toList.filter fun index =>
        singleCell.stored twins 1 index.toNat) ∧
      g'.dropped = 1 := by
  have hbuckets : BucketGrid.allocate singleCell = .ok (BucketGrid.ofBounds singleCell) := rfl
  have hslots : allocate singleCell 1 = .ok (create singleCell 1) := rfl
  obtain ⟨b', g', inBuckets, inSlots, hb', hg', hquery, hquery', -, -, hperm, hdropped, -⟩ :=
    queries_agree singleCell (by decide) (by decide) 1 twins (by decide) (.allocate hbuckets) rfl
      (.allocate hslots) ⟨0, 0⟩ 1 none
  refine ⟨b', g', inBuckets, inSlots, hb', hg', hquery, hquery', hperm, hdropped.trans ?_⟩
  decide +kernel

end SlotGrid

end ParticleDynamics
