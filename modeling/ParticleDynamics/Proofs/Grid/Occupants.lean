import ParticleDynamics.Particle
import ParticleDynamics.Proofs.Grid.Locating

/-!
# Who is in a cell

The **occupants** of a place are the live indices whose particles lie in the cell at that place,
from low to high. They are defined from the list of particles alone. Both indexes are shown
elsewhere to hold them, one in buckets of any size, the other in a fixed number of slots.

An index is **stored** when few enough smaller indices fall in its cell. Among the occupants of a
place, the stored ones are the first `capacity` (`Bounds.take_occupants`).
-/

namespace ParticleDynamics

/-! ## Indices as words -/

theorem toNat_toUInt32 {index : Nat} (h : index < 2 ^ 32) : index.toUInt32.toNat = index :=
  UInt32.toNat_ofNat_of_lt' h

/-- Small indices stay apart as words. -/
theorem nodup_map_toUInt32 {indices : List Nat} (hlt : ∀ index ∈ indices, index < 2 ^ 32)
    (h : indices.Nodup) : (indices.map Nat.toUInt32).Nodup := by
  refine h.map_on fun index hindex other hother heq => ?_
  rw [← toNat_toUInt32 (hlt index hindex), heq, toNat_toUInt32 (hlt other hother)]

/-- Small indices can be told apart before or after they become words. -/
theorem filter_map_toUInt32 {indices : List Nat} (hlt : ∀ index ∈ indices, index < 2 ^ 32)
    (passes : Nat → Bool) :
    ((indices.map Nat.toUInt32).filter fun index => passes index.toNat) =
      (indices.filter passes).map Nat.toUInt32 := by
  rw [List.filter_map]
  congr 1
  refine List.filter_congr fun index hindex => ?_
  rw [Function.comp_apply, toNat_toUInt32 (hlt index hindex)]

namespace Bounds

variable {α : Type} [Scalar α]

/-! ## Live indices and their cells -/

/-- The cell in which a live index falls. -/
def cellAt (b : Bounds α) (particles : Array (Particle α)) (index : Nat) : Option Cell :=
  (particles[index]?.filter Particle.isAlive).bind fun p => (b.cellOf p.position).toOption

/-- The live indices below `count` that fall in the cell at a place. -/
def occupants (b : Bounds α) (particles : Array (Particle α)) (place count : Nat) : List Nat :=
  (List.range count).filter fun index => (b.cellAt particles index).map b.flatIndex == some place

/-- Whether an index falls in a cell in which fewer than `capacity` smaller live indices fall. -/
def stored (b : Bounds α) (particles : Array (Particle α)) (capacity index : Nat) : Bool :=
  match b.cellAt particles index with
  | some cell =>
    decide (((List.range index).filter fun other =>
      b.cellAt particles other == some cell).length < capacity)
  | none => false

variable {b : Bounds α} {particles : Array (Particle α)}

theorem cellAt_eq_some_iff (h : b.Proper) {index : Nat} {cell : Cell} :
    b.cellAt particles index = some cell ↔
      ∃ p, particles[index]? = some p ∧ p.isAlive = true ∧
        b.nearest (b.freeCell p.position) = cell := by
  rw [cellAt]
  cases hp : particles[index]? with
  | none => simp
  | some p =>
    cases halive : p.isAlive <;> simp [Option.filter, halive, cellOf_eq h, Except.toOption]

theorem cellAt_of_dead {index : Nat} {p : Particle α} (hp : particles[index]? = some p)
    (hdead : p.isAlive = false) : b.cellAt particles index = none := by
  rw [cellAt, hp]
  simp [Option.filter, hdead]

theorem has_of_cellAt (h : b.Proper) {index : Nat} {cell : Cell}
    (hcell : b.cellAt particles index = some cell) : b.Has cell := by
  obtain ⟨p, -, -, rfl⟩ := (cellAt_eq_some_iff h).1 hcell
  exact has_nearest h _

theorem isSome_cellAt (h : b.Proper) (index : Nat) :
    (b.cellAt particles index).isSome = Particle.isLiveAt particles index := by
  rw [Particle.isLiveAt, cellAt]
  cases hp : particles[index]? with
  | none => rfl
  | some p =>
    cases halive : p.isAlive with
    | false => simp [Option.filter, halive]
    | true => simp [Option.filter, halive, cellOf_eq h, Except.toOption]

theorem lt_size_of_cellAt {index : Nat} {cell : Cell}
    (hcell : b.cellAt particles index = some cell) : index < particles.size := by
  by_contra hge
  rw [cellAt, Array.getElem?_eq_none (by omega)] at hcell
  cases hcell

/-! ## Occupants -/

@[simp] theorem occupants_zero (place : Nat) : b.occupants particles place 0 = [] := rfl

/-- One more index counted. -/
theorem occupants_succ (place count : Nat) :
    b.occupants particles place (count + 1) = b.occupants particles place count ++
      if (b.cellAt particles count).map b.flatIndex = some place then [count] else [] := by
  rw [occupants, List.range_succ, List.filter_append]
  congr 1
  by_cases h : (b.cellAt particles count).map b.flatIndex = some place <;> simp [h]

theorem mem_occupants_iff {place count index : Nat} :
    index ∈ b.occupants particles place count ↔
      index < count ∧ (b.cellAt particles index).map b.flatIndex = some place := by
  simp [occupants]

theorem nodup_occupants (place count : Nat) : (b.occupants particles place count).Nodup :=
  List.nodup_range.filter _

/-- The live indices of a cell of the grid are the occupants of its place. -/
theorem filter_cellAt_eq (h : b.Proper) {cell : Cell} (hcell : b.Has cell) (count : Nat) :
    ((List.range count).filter fun other => b.cellAt particles other == some cell) =
      b.occupants particles (b.flatIndex cell) count := by
  refine List.filter_congr fun other _ => ?_
  rw [Bool.eq_iff_iff, beq_iff_eq, beq_iff_eq]
  cases hother : b.cellAt particles other with
  | none => simp
  | some found =>
    rw [Option.map_some, Option.some.injEq, Option.some.injEq]
    exact (flatIndex_inj (has_of_cellAt h hother) hcell).symm

/-- A live index is stored when fewer than `capacity` occupants of its place come before it. -/
theorem stored_eq (h : b.Proper) {index capacity : Nat} {cell : Cell}
    (hcell : b.cellAt particles index = some cell) :
    b.stored particles capacity index =
      decide ((b.occupants particles (b.flatIndex cell) index).length < capacity) := by
  rw [stored, hcell]
  simp only [filter_cellAt_eq h (has_of_cellAt h hcell)]

/-- **The stored occupants of a place are its first ones.** To be stored is to have few occupants
before oneself, which says nothing about slots; here it is tied to them. -/
theorem take_occupants (h : b.Proper) (place count capacity : Nat) :
    (b.occupants particles place count).take capacity =
      (b.occupants particles place count).filter (b.stored particles capacity) := by
  induction count with
  | zero => rw [occupants_zero, List.take_nil, List.filter_nil]
  | succ count ih =>
    rw [occupants_succ, List.take_append, List.filter_append, ih]
    congr 1
    split
    next hplace =>
      obtain ⟨cell, hcell, rfl⟩ := Option.map_eq_some_iff.1 hplace
      rw [List.filter_cons, List.filter_nil, stored_eq h hcell]
      -- the new occupant is taken exactly if the ones before it leave room
      by_cases hfree : (b.occupants particles (b.flatIndex cell) count).length < capacity
      · rw [decide_eq_true hfree, if_pos rfl, List.take_of_length_le]
        rw [List.length_singleton]
        omega
      · rw [decide_eq_false hfree, if_neg Bool.false_ne_true, Nat.sub_eq_zero_of_le (by omega),
          List.take_zero]
    next => rw [List.take_nil, List.filter_nil]

omit [Scalar α] in
/-- The captured position of an index. -/
theorem fetch_position {positions : Array (Vec2 α)} (hfew : particles.size ≤ 2 ^ 32)
    (hpositions : positions = particles.map Particle.position) {index : Nat}
    (hlt : index < particles.size) :
    fetch positions index.toUInt32.toNat = .ok particles[index].position := by
  have hword := toNat_toUInt32 (Nat.lt_of_lt_of_le hlt hfew)
  rw [fetch_eq_ok_iff, hpositions, hword, Array.getElem?_map, Array.getElem?_eq_getElem hlt,
    Option.map_some]

/-! ## Going through cells -/

/-- The live indices that fall in one of some cells and pass a test, cell by cell. -/
def gather (b : Bounds α) (particles : Array (Particle α)) (passes : Nat → Bool)
    (cells : List Cell) : List Nat :=
  cells.flatMap fun cell => (b.occupants particles (b.flatIndex cell) particles.size).filter passes

variable {passes : Nat → Bool} {cells : List Cell}

@[simp] theorem gather_nil : b.gather particles passes [] = [] := rfl

theorem gather_cons (cell : Cell) :
    b.gather particles passes (cell :: cells) =
      (b.occupants particles (b.flatIndex cell) particles.size).filter passes ++
        b.gather particles passes cells :=
  List.flatMap_cons

theorem gather_append (more : List Cell) :
    b.gather particles passes (cells ++ more) =
      b.gather particles passes cells ++ b.gather particles passes more :=
  List.flatMap_append

/-- **Going through cells meets no index twice**, if no cell comes twice. An index has one cell, and
the cells that are gone through have places of their own. -/
theorem nodup_gather (hcells : cells.Nodup) (hhas : ∀ cell ∈ cells, b.Has cell) :
    (b.gather particles passes cells).Nodup := by
  refine List.nodup_flatMap.2 ⟨fun cell _ => (nodup_occupants _ _).filter _, ?_⟩
  refine hcells.imp_of_mem fun {cell other} hcell hother hne => ?_
  -- an index that is met in two cells would fall in both
  intro index hindex hindex'
  have hplace := (mem_occupants_iff.1 (List.mem_filter.1 hindex).1).2
  have hplace' := (mem_occupants_iff.1 (List.mem_filter.1 hindex').1).2
  rw [hplace, Option.some.injEq, flatIndex_inj (hhas cell hcell) (hhas other hother)] at hplace'
  exact hne hplace'

/-- **Going through cells meets the indices that fall in one of them.** -/
theorem mem_gather_iff (h : b.Proper) (hhas : ∀ cell ∈ cells, b.Has cell) {index : Nat} :
    index ∈ b.gather particles passes cells ↔
      passes index = true ∧ ∃ cell ∈ cells, b.cellAt particles index = some cell := by
  rw [gather, List.mem_flatMap]
  constructor
  · rintro ⟨cell, hcell, hindex⟩
    obtain ⟨hindex, hpasses⟩ := List.mem_filter.1 hindex
    obtain ⟨found, hfound, hplace⟩ := Option.map_eq_some_iff.1 (mem_occupants_iff.1 hindex).2
    obtain rfl := (flatIndex_inj (has_of_cellAt h hfound) (hhas cell hcell)).1 hplace
    exact ⟨hpasses, found, hcell, hfound⟩
  · rintro ⟨hpasses, cell, hcell, hfound⟩
    refine ⟨cell, hcell, List.mem_filter.2 ⟨mem_occupants_iff.2 ⟨?_, ?_⟩, hpasses⟩⟩
    · exact lt_size_of_cellAt hfound
    · rw [hfound, Option.map_some]

/-- What is met has a particle. -/
theorem lt_size_of_mem_gather {index : Nat} (h : index ∈ b.gather particles passes cells) :
    index < particles.size := by
  obtain ⟨cell, -, hindex⟩ := List.mem_flatMap.1 h
  exact (mem_occupants_iff.1 (List.mem_filter.1 hindex).1).1

end Bounds

end ParticleDynamics
