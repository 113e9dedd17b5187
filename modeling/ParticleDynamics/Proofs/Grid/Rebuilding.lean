import Mathlib.Algebra.BigOperators.Group.List.Basic
import ParticleDynamics.Proofs.Grid.Buckets
import ParticleDynamics.Proofs.Grid.Following

/-!
# What a rebuild leaves of earlier builds

All that an index remembers between builds is which buckets hold something. For a tidy index that is
enough: emptying these leaves the buckets of a new index, so a build does the same as in a new index
over the same bounds (`BucketGrid.Tidy.build_eq`), but for the tracker, which neither building nor
querying looks at.

The remembered cells are also what is counted. They hold something, and none is remembered twice
(`BucketGrid.Listed`), so every live particle counts once (`BucketGrid.Tidy.indexedCount_build`).

An index is **consistent** (`BucketGrid.Consistent`) when it is tidy, its remembered cells are in
order, and every index that it holds has a captured position. Creating an index makes it consistent,
and following a camera and building keep it so.
-/

namespace ParticleDynamics

namespace BucketGrid

variable {α : Type} [Scalar α]

/-! ## What a build starts from -/

/-- The index with another tracker. -/
def withTracker (g : BucketGrid α) (tracker : Option (Tracker α)) : BucketGrid α :=
  { g with tracker := tracker }

/-- Inserting does not look at the tracker. -/
theorem insert_withTracker (g : BucketGrid α) (tracker : Option (Tracker α)) (index : Nat)
    (p : Particle α) :
    (g.withTracker tracker).insert index p =
      (g.insert index p).map fun filled => filled.withTracker tracker := by
  rw [insert, insert]
  split
  · dsimp only [withTracker]
    cases g.bounds.cellOf p.position with
    | error breach => rfl
    | ok cell =>
      dsimp only [bind, Except.bind]
      cases fetch g.buckets (g.bounds.flatIndex cell) <;> rfl
  · rfl

theorem insertFrom_withTracker (g : BucketGrid α) (tracker : Option (Tracker α)) (index : Nat)
    (particles : List (Particle α)) :
    (g.withTracker tracker).insertFrom index particles =
      (g.insertFrom index particles).map fun filled => filled.withTracker tracker := by
  induction particles generalizing g index with
  | nil => rfl
  | cons p rest ih =>
    rw [insertFrom, insertFrom, insert_withTracker]
    cases g.insert index p with
    | error breach => rfl
    | ok between => exact ih between (index + 1)

omit [Scalar α] in
/-- **All tidy indexes over the same bounds start a build alike.** -/
theorem Tidy.readied_eq {g : BucketGrid α} (hg : g.Tidy) (particles : Array (Particle α)) :
    g.readied particles =
      ((ofBounds g.bounds).readied particles).withTracker g.tracker := by
  have hbuckets : emptied g.buckets g.occupied = Array.replicate g.bounds.cellCount #[] := by
    refine Array.ext_getElem? fun place => ?_
    rw [Array.getElem?_replicate]
    split
    next hlt => exact hg.getElem?_emptied hlt
    next hge =>
      rw [Array.getElem?_eq_none]
      rw [size_emptied, hg.size_eq]
      omega
  rw [BucketGrid.readied, hbuckets]
  rfl

/-- **A build does not depend on what was indexed before.** This is what makes it possible to speak
of the index of some particles, and to forget its history. -/
theorem Tidy.build_eq {g : BucketGrid α} (hg : g.Tidy) (particles : Array (Particle α)) :
    g.build particles =
      ((ofBounds g.bounds).build particles).map fun fresh => fresh.withTracker g.tracker := by
  change (g.readied particles).insertFrom 0 particles.toList = _
  rw [hg.readied_eq, insertFrom_withTracker]
  rfl

/-! ## Queries -/

section

variable (g : BucketGrid α) (tracker : Option (Tracker α)) (s : Search α)

theorem searchBucket_withTracker (indices : List UInt32) (found : Array UInt32) :
    (g.withTracker tracker).searchBucket s indices found = g.searchBucket s indices found := by
  induction indices generalizing found with
  | nil => rfl
  | cons index rest ih =>
    rw [searchBucket, searchBucket]
    simp only [ih]
    rfl

theorem searchRow_withTracker (y : Int) (count : Nat) (x : Int) (found : Array UInt32) :
    (g.withTracker tracker).searchRow s y count x found = g.searchRow s y count x found := by
  induction count generalizing x found with
  | zero => rfl
  | succ count ih =>
    rw [searchRow, searchRow]
    simp only [ih, searchBucket_withTracker]
    rfl

theorem searchRows_withTracker (x : Int) (columns count : Nat) (y : Int) (found : Array UInt32) :
    (g.withTracker tracker).searchRows s x columns count y found =
      g.searchRows s x columns count y found := by
  induction count generalizing y found with
  | zero => rfl
  | succ count ih =>
    rw [searchRows, searchRows]
    simp only [ih, searchRow_withTracker]

/-- A query does not look at the tracker. -/
theorem query_withTracker (point : Vec2 α) (radius : α) (exclude : Option UInt32) :
    (g.withTracker tracker).query point radius exclude = g.query point radius exclude := by
  simp only [query, queryOnto, searchRows_withTracker]
  rfl

end

/-! ## How many are indexed -/

/-- The cells that are remembered hold something, and none is remembered twice. -/
structure Listed (g : BucketGrid α) : Prop where
  nodup : g.occupied.toList.Nodup
  filled : ∀ {place : Nat}, place ∈ g.occupied →
    ∃ bucket, g.buckets[place]? = some bucket ∧ bucket ≠ #[]

/-- How many indices the bucket at a place holds. -/
def load (g : BucketGrid α) (place : Nat) : Nat := (g.buckets[place]?.getD #[]).size

omit [Scalar α] in
theorem indexedCount_eq (g : BucketGrid α) :
    g.indexedCount = (g.occupied.toList.map g.load).sum := by
  rw [indexedCount, ← Array.foldl_toList, List.sum_eq_foldl, List.foldl_map]
  rfl

section

variable {g : BucketGrid α} {place : Nat} {bucket : Array UInt32}
  (hbucket : g.buckets[place]? = some bucket) (index : Nat)

include hbucket

omit [Scalar α]

theorem load_filed_self : (g.filed place bucket index).load place = g.load place + 1 := by
  simp [load, filed, Array.getElem?_modify, hbucket]

omit hbucket in
theorem load_filed_of_ne {other : Nat} (hne : other ≠ place) :
    (g.filed place bucket index).load other = g.load other := by
  simp [load, filed, Array.getElem?_modify, Ne.symm hne]

/-- Among places that are not repeated, the load of one has grown by one. -/
theorem sum_load_filed {places : List Nat} (hnodup : places.Nodup) (hmem : place ∈ places) :
    (places.map (g.filed place bucket index).load).sum = (places.map g.load).sum + 1 := by
  have hothers : (places.erase place).map (g.filed place bucket index).load =
      (places.erase place).map g.load := by
    refine List.map_congr_left fun other hother => ?_
    exact load_filed_of_ne index (hnodup.mem_erase_iff.1 hother).1
  rw [← List.sum_map_erase _ hmem, ← List.sum_map_erase g.load hmem, hothers,
    load_filed_self hbucket]
  omega

/-- The place of a filed index is remembered once, and no index was counted there that was not
counted before. -/
theorem occupied_filed (htidy : g.Tidy) (hg : g.Listed) :
    (g.filed place bucket index).occupied.toList.Nodup ∧
      place ∈ (g.filed place bucket index).occupied ∧
      ((g.filed place bucket index).occupied.toList.map g.load).sum = g.indexedCount := by
  rw [indexedCount_eq, BucketGrid.filed]
  by_cases hempty : bucket = #[]
  · subst hempty
    have hnew : place ∉ g.occupied := by
      intro hmem
      obtain ⟨found, hfound, hne⟩ := hg.filled hmem
      exact hne (Option.some.inj (hfound.symm.trans hbucket))
    have hload : g.load place = 0 := by rw [load, hbucket]; rfl
    rw [Array.isEmpty_empty, if_pos rfl, Array.toList_push]
    refine ⟨?_, Array.mem_push_self, ?_⟩
    · exact List.nodup_append'.2 ⟨hg.nodup, List.nodup_singleton _,
        List.disjoint_singleton.2 fun h => hnew (Array.mem_toList_iff.1 h)⟩
    · rw [List.map_append, List.sum_append, List.map_singleton, List.sum_singleton, hload,
        Nat.add_zero]
  · have hfalse : bucket.isEmpty = false := by simpa using hempty
    rw [hfalse, if_neg Bool.false_ne_true]
    exact ⟨hg.nodup, htidy.remembered hbucket hempty, rfl⟩

/-- **A filed index counts once.** -/
theorem Listed.filed (hg : g.Listed) (htidy : g.Tidy) :
    (g.filed place bucket index).Listed ∧
      (g.filed place bucket index).indexedCount = g.indexedCount + 1 := by
  obtain ⟨hnodup, hmem, hsum⟩ := occupied_filed hbucket index htidy hg
  refine ⟨⟨hnodup, fun {other} hother => ?_⟩, ?_⟩
  · simp only [BucketGrid.filed, Array.getElem?_modify]
    by_cases hplace : place = other
    · subst hplace
      exact ⟨bucket.push index.toUInt32, by simp [hbucket], Array.push_ne_empty⟩
    · rw [if_neg hplace]
      refine hg.filled ?_
      rw [BucketGrid.filed] at hother
      dsimp only at hother
      split at hother
      · exact (Array.mem_push.1 hother).resolve_right (Ne.symm hplace)
      · exact hother
  · rw [indexedCount_eq, sum_load_filed hbucket index hnodup (Array.mem_toList_iff.2 hmem), hsum]

end

/-- One more particle counts if it is alive. -/
theorem Listed.insert {g g' : BucketGrid α} {index : Nat} {p : Particle α} (hg : g.Listed)
    (htidy : g.Tidy) (h : g.insert index p = .ok g') :
    g'.Listed ∧ g'.indexedCount = g.indexedCount + if p.isAlive then 1 else 0 := by
  rcases insert_eq_ok_iff.1 h with ⟨hdead, rfl⟩ | ⟨halive, cell, bucket, -, hbucket, rfl⟩
  · rw [hdead]
    exact ⟨hg, rfl⟩
  · rw [halive]
    exact hg.filed hbucket index htidy

/-- **Every live particle counts once.** -/
theorem Listed.insertFrom {particles : List (Particle α)} {g g' : BucketGrid α} {index : Nat}
    (hg : g.Listed) (htidy : g.Tidy) (h : g.insertFrom index particles = .ok g') :
    g'.Listed ∧ g'.indexedCount = g.indexedCount + particles.countP Particle.isAlive := by
  induction particles generalizing g index with
  | nil =>
    obtain rfl := Except.ok.inj h
    exact ⟨hg, rfl⟩
  | cons p rest ih =>
    obtain ⟨between, hp, hrest⟩ := bind_eq_ok_iff.1 h
    obtain ⟨hlisted, hcount⟩ := hg.insert htidy hp
    obtain ⟨hlisted', hcount'⟩ := ih hlisted (htidy.insert hp) hrest
    refine ⟨hlisted', ?_⟩
    rw [hcount', hcount, List.countP_cons]
    omega

omit [Scalar α] in
theorem listed_of_unused {g : BucketGrid α} (h : g.occupied = #[]) : g.Listed :=
  ⟨by rw [h]; exact List.nodup_nil,
    fun {place} hplace => absurd (h ▸ hplace) (Array.not_mem_empty place)⟩

/-- **As many indices are held as there are live particles.** The count goes through the listed
buckets, so it could miss some if the list were not complete. -/
theorem Tidy.indexedCount_build {g g' : BucketGrid α} (hg : g.Tidy)
    {particles : Array (Particle α)} (h : g.build particles = .ok g') :
    g'.indexedCount = particles.countP Particle.isAlive := by
  have hready : (g.readied particles).Listed := listed_of_unused rfl
  rw [(hready.insertFrom (hg.readied particles) h).2, ← Array.countP_toList]
  exact Nat.zero_add _

/-! ## Indices with a position -/

/-- Every index that is held has a captured position. -/
def Placed (g : BucketGrid α) : Prop :=
  ∀ (place : Nat) (bucket : Array UInt32), g.buckets[place]? = some bucket →
    ∀ index ∈ bucket, index.toNat < g.positions.size

omit [Scalar α] in
theorem placed_of_empty {g : BucketGrid α}
    (h : ∀ {place : Nat} {bucket : Array UInt32}, g.buckets[place]? = some bucket → bucket = #[]) :
    g.Placed := by
  intro place bucket hbucket index hindex
  exact absurd (h hbucket ▸ hindex) (Array.not_mem_empty index)

theorem Placed.insert {g g' : BucketGrid α} {index : Nat} {p : Particle α} (hg : g.Placed)
    (hindex : index < g.positions.size) (h : g.insert index p = .ok g') : g'.Placed := by
  rcases insert_eq_ok_iff.1 h with ⟨-, rfl⟩ | ⟨-, cell, bucket, -, hbucket, rfl⟩
  · exact hg
  · intro place found hfound other hother
    simp only [BucketGrid.filed, Array.getElem?_modify] at hfound
    split at hfound
    next hplace =>
      obtain ⟨old, hold, rfl⟩ := Option.map_eq_some_iff.1 hfound
      rcases Array.mem_push.1 hother with hmem | rfl
      · exact hg place old hold other hmem
      · -- an index that does not fit a word is cut to a smaller one
        exact Nat.lt_of_le_of_lt (Nat.mod_le _ _) hindex
    next => exact hg place found hfound other hother

theorem Placed.insertFrom {particles : List (Particle α)} {g g' : BucketGrid α} {index : Nat}
    (hg : g.Placed) (hroom : index + particles.length ≤ g.positions.size)
    (h : g.insertFrom index particles = .ok g') : g'.Placed := by
  induction particles generalizing g index with
  | nil =>
    obtain rfl := Except.ok.inj h
    exact hg
  | cons p rest ih =>
    obtain ⟨between, hp, hrest⟩ := bind_eq_ok_iff.1 h
    rw [List.length_cons] at hroom
    refine ih (hg.insert (by omega) hp) ?_ hrest
    rw [(insert_keeps hp).2.2]
    omega

/-! ## Consistent indexes -/

/-- An index whose parts fit together. -/
structure Consistent (g : BucketGrid α) : Prop where
  tidy : g.Tidy
  listed : g.Listed
  placed : g.Placed

omit [Scalar α] in
/-- Nothing is held in the empty buckets of an index that starts over. -/
theorem consistent_of_replicate {g : BucketGrid α}
    (hbuckets : g.buckets = Array.replicate g.bounds.cellCount #[]) (hoccupied : g.occupied = #[]) :
    g.Consistent := by
  refine ⟨tidy_of_replicate hbuckets, listed_of_unused hoccupied, placed_of_empty ?_⟩
  intro place bucket h
  rw [hbuckets, Array.getElem?_replicate] at h
  split at h
  · exact (Option.some.inj h).symm
  · cases h

theorem Consistent.track {g g' : BucketGrid α} {camera : Camera α} {changed : Bool}
    (hg : g.Consistent) (h : g.track camera = .ok (changed, g')) : g'.Consistent := by
  rcases track_cases h with ⟨tracker, rfl⟩ | ⟨hbuckets, hoccupied⟩
  · exact ⟨⟨hg.tidy.size_eq, hg.tidy.remembered⟩, ⟨hg.listed.nodup, hg.listed.filled⟩, hg.placed⟩
  · exact consistent_of_replicate hbuckets hoccupied

theorem Consistent.build {g g' : BucketGrid α} {particles : Array (Particle α)}
    (hg : g.Consistent) (h : g.build particles = .ok g') : g'.Consistent := by
  have hlisted : (g.readied particles).Listed := listed_of_unused rfl
  have hplaced : (g.readied particles).Placed := placed_of_empty hg.tidy.eq_empty_of_readied
  have hroom : 0 + particles.toList.length ≤ (g.readied particles).positions.size := by
    rw [readied, Array.size_map, Array.length_toList]
    omega
  exact ⟨hg.tidy.build h, (hlisted.insertFrom (hg.tidy.readied particles) h).1,
    hplaced.insertFrom hroom h⟩

end BucketGrid

end ParticleDynamics
