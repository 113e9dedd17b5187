import ParticleDynamics.Grid.Slots
import ParticleDynamics.Proofs.Grid.Buckets

/-!
# What the slot index holds and finds

After a build the counter of a place is the number of its occupants, and the slots below the
capacity hold the first of them (`SlotGrid.exists_holding`), whatever was built before: a slot that an
earlier build wrote is either overwritten or lies past the counter. The particles that found their
cell full are those that are not stored.

A search in progress has a list of indices ahead of it (`RingCursor.ahead`). A turn that yields an
index takes the head of that list, and any other turn leaves the list as it is
(`SlotGrid.Built.exists_turn`), so what a search finds in the end is the list it started with.
-/

namespace ParticleDynamics

namespace SlotGrid

variable {α : Type} [Scalar α]

/-! ## Building -/

/-- The indexes over some bounds that creating, clearing and building lead to. -/
inductive Reachable (bounds : Bounds α) (maxPerCell : UInt32) : SlotGrid α → Prop where
  /-- an empty index -/
  | allocate {g : SlotGrid α} (h : allocate bounds maxPerCell = .ok g) :
      Reachable bounds maxPerCell g
  /-- an index with its counters set back -/
  | clear {g : SlotGrid α} (hg : Reachable bounds maxPerCell g) :
      Reachable bounds maxPerCell g.clear
  /-- an index that was built -/
  | build {g g' : SlotGrid α} {particles : Array (Particle α)}
      (hg : Reachable bounds maxPerCell g) (h : g.build particles = .ok g') :
      Reachable bounds maxPerCell g'

/-- **All that inserting can do**: a dead particle changes nothing, and a live one takes the next
number of its cell. -/
theorem insert_eq_ok_iff {g g' : SlotGrid α} {index : Nat} {p : Particle α} :
    g.insert index p = .ok g' ↔
      p.isAlive = false ∧ g' = g ∨
      p.isAlive = true ∧ ∃ cell, g.bounds.cellOf p.position = .ok cell ∧
        g' = g.filed (g.bounds.flatIndex cell) index := by
  rw [insert]
  cases halive : p.isAlive with
  | false => simp [eq_comm]
  | true =>
    rw [if_pos rfl, bind_eq_ok_iff]
    constructor
    · rintro ⟨cell, hcell, h⟩
      exact .inr ⟨rfl, cell, hcell, (Except.ok.inj h).symm⟩
    · rintro (⟨hdead, -⟩ | ⟨-, cell, hcell, rfl⟩)
      · cases hdead
      · exact ⟨cell, hcell, rfl⟩

/-- What inserting leaves alone: the shape of an index and the captured positions. -/
structure Keeps (g' g : SlotGrid α) : Prop where
  bounds_eq : g'.bounds = g.bounds
  capacity_eq : g'.capacity = g.capacity
  positions_eq : g'.positions = g.positions

omit [Scalar α] in
theorem Keeps.refl (g : SlotGrid α) : g.Keeps g := ⟨rfl, rfl, rfl⟩

omit [Scalar α] in
theorem Keeps.trans {g g' g'' : SlotGrid α} (h' : g''.Keeps g') (h : g'.Keeps g) : g''.Keeps g :=
  ⟨h'.bounds_eq.trans h.bounds_eq, h'.capacity_eq.trans h.capacity_eq,
    h'.positions_eq.trans h.positions_eq⟩

omit [Scalar α] in
theorem keeps_filed (g : SlotGrid α) (place index : Nat) : (g.filed place index).Keeps g := by
  rw [filed]
  dsimp only
  split <;> exact ⟨rfl, rfl, rfl⟩

theorem keeps_insertFrom {particles : List (Particle α)} {g g' : SlotGrid α} {index : Nat}
    (h : g.insertFrom index particles = .ok g') : g'.Keeps g := by
  induction particles generalizing g index with
  | nil =>
    obtain rfl := Except.ok.inj h
    exact .refl g
  | cons p rest ih =>
    obtain ⟨between, hp, hrest⟩ := bind_eq_ok_iff.1 h
    refine (ih hrest).trans ?_
    rcases insert_eq_ok_iff.1 hp with ⟨-, rfl⟩ | ⟨-, cell, -, rfl⟩
    · exact .refl _
    · exact keeps_filed ..

/-- **The shape of an index is settled when it is created.** Building and clearing touch counters,
slots and positions only. -/
theorem Reachable.shape {bounds : Bounds α} {maxPerCell : UInt32} {g : SlotGrid α}
    (hg : Reachable bounds maxPerCell g) :
    g.bounds = bounds ∧ g.capacity = max maxPerCell 1 := by
  induction hg with
  | allocate h =>
    obtain ⟨cells, -, h⟩ := bind_eq_ok_iff.1 h
    obtain ⟨-, -, h⟩ := bind_eq_ok_iff.1 h
    obtain ⟨-, -, h⟩ := bind_eq_ok_iff.1 h
    obtain rfl := Except.ok.inj h
    exact ⟨rfl, rfl⟩
  | clear _ ih => exact ih
  | build _ h ih =>
    have hkeeps := keeps_insertFrom h
    exact ⟨hkeeps.bounds_eq.trans ih.1, hkeeps.capacity_eq.trans ih.2⟩

omit [Scalar α] in
theorem asked_filed (g : SlotGrid α) (place other index : Nat) :
    (g.filed place index).asked other =
      g.asked other + if place = other then 1 else 0 := by
  have hcount : (g.filed place index).asked other =
      (g.counts.insert place (g.asked place + 1)).getD other 0 := by
    rw [filed]
    split <;> rfl
  rw [hcount, getD_counts_insert]
  split
  next heq => rw [heq]
  next => rfl

omit [Scalar α] in
/-- Only the slot whose number was taken changes. -/
theorem held_filed (g : SlotGrid α) {place other index slot : Nat}
    (hslot : slot < g.capacity.toNat) :
    (g.filed place index).held other slot =
      if place = other ∧ g.asked place = slot then index.toUInt32 else g.held other slot := by
  by_cases hfree : g.asked place < g.capacity.toNat
  · have hheld : (g.filed place index).held other slot =
        (g.slots.insert (g.slotPlace place (g.asked place)) index.toUInt32).getD
          (g.slotPlace other slot) 0 := by
      rw [filed, if_pos hfree]
      rfl
    rw [hheld, Std.HashMap.getD_insert, held]
    simp only [beq_iff_eq, slotPlace_inj hfree hslot]
  · have hheld : (g.filed place index).held other slot = g.held other slot := by
      rw [filed, if_neg hfree]
      rfl
    rw [hheld, if_neg (by omega)]

omit [Scalar α] in
theorem dropped_filed (g : SlotGrid α) (place index : Nat) :
    (g.filed place index).dropped =
      g.dropped + if g.asked place < g.capacity.toNat then 0 else 1 := by
  rw [filed]
  split <;> rfl

/-- The first `count` particles asked for their slots and got them as far as there were any. -/
structure Holds (g : SlotGrid α) (particles : Array (Particle α)) (count : Nat) : Prop where
  asked_eq : ∀ place, g.asked place = (g.bounds.occupants particles place count).length
  held_eq : ∀ {place slot index : Nat}, slot < g.capacity.toNat →
    (g.bounds.occupants particles place count)[slot]? = some index →
      g.held place slot = index.toUInt32
  dropped_eq : g.dropped = ((List.range count).filter fun index =>
    Particle.isLiveAt particles index && !g.bounds.stored particles g.capacity.toNat index).length

/-- When nothing was dropped, every live index is stored. -/
theorem Holds.stored_of_dropped_eq_zero {g : SlotGrid α} {particles : Array (Particle α)}
    {count index : Nat} (hg : g.Holds particles count) (hnone : g.dropped = 0) (hlt : index < count)
    (hlive : Particle.isLiveAt particles index = true) :
    g.bounds.stored particles g.capacity.toNat index = true := by
  have hall := hg.dropped_eq
  rw [hnone, eq_comm, List.length_eq_zero_iff, List.filter_eq_nil_iff] at hall
  have hout := hall index (List.mem_range.2 hlt)
  rw [hlive, Bool.true_and] at hout
  simpa using hout

/-- A dead particle asks for no slot. -/
theorem Holds.pass {g : SlotGrid α} {particles : Array (Particle α)} {count : Nat} {p : Particle α}
    (hproper : g.bounds.Proper) (hg : g.Holds particles count) (hp : particles[count]? = some p)
    (hdead : p.isAlive = false) : g.Holds particles (count + 1) := by
  have hnone := Bounds.cellAt_of_dead (b := g.bounds) hp hdead
  have hnot : Particle.isLiveAt particles count = false := by
    rw [← Bounds.isSome_cellAt hproper, hnone]
    rfl
  have hsame (place : Nat) : g.bounds.occupants particles place (count + 1) =
      g.bounds.occupants particles place count := by
    rw [Bounds.occupants_succ, hnone]
    simp
  refine ⟨?_, ?_, ?_⟩
  · intro place
    rw [hsame, hg.asked_eq]
  · intro place slot index hslot hindex
    exact hg.held_eq hslot (hsame place ▸ hindex)
  · rw [List.range_succ, List.filter_append, List.length_append, ← hg.dropped_eq, List.filter_cons,
      hnot]
    rfl

/-- The slots of a place with one more occupant: the new one got the slot after the others. -/
theorem Holds.held_filed {g : SlotGrid α} {particles : Array (Particle α)} {count : Nat}
    (hg : g.Holds particles count) {place other slot index : Nat} (hslot : slot < g.capacity.toNat)
    (h : (g.bounds.occupants particles other count ++
      if place = other then [count] else [])[slot]? = some index) :
    (g.filed place count).held other slot = index.toUInt32 := by
  rw [SlotGrid.held_filed g hslot, hg.asked_eq]
  by_cases hplace : place = other
  · subst hplace
    rw [if_pos rfl, List.getElem?_append] at h
    split at h
    next hold =>
      -- a slot of an earlier occupant is not written again
      rw [if_neg (by omega)]
      exact hg.held_eq hslot h
    next hnew =>
      rw [List.getElem?_singleton] at h
      split at h
      next hlast => rw [if_pos ⟨rfl, by omega⟩, Option.some.inj h]
      next => cases h
  · rw [if_neg hplace, List.append_nil] at h
    rw [if_neg fun heq => hplace heq.1]
    exact hg.held_eq hslot h

/-- A live particle asks for the next slot of its place. -/
theorem Holds.filed {g : SlotGrid α} {particles : Array (Particle α)} {count : Nat} {cell : Cell}
    (hproper : g.bounds.Proper) (hg : g.Holds particles count)
    (hcell : g.bounds.cellAt particles count = some cell) :
    (g.filed (g.bounds.flatIndex cell) count).Holds particles (count + 1) := by
  obtain ⟨hbounds, hcapacity, -⟩ := keeps_filed g (g.bounds.flatIndex cell) count
  have hlive : Particle.isLiveAt particles count = true := by
    rw [← Bounds.isSome_cellAt hproper, hcell]
    rfl
  have hsucc (place : Nat) : g.bounds.occupants particles place (count + 1) =
      g.bounds.occupants particles place count ++
        if g.bounds.flatIndex cell = place then [count] else [] := by
    rw [Bounds.occupants_succ, hcell]
    simp only [Option.map_some, Option.some.injEq]
  refine ⟨?_, ?_, ?_⟩
  · intro place
    rw [asked_filed, hbounds, hsucc, hg.asked_eq, List.length_append]
    split <;> rfl
  · intro place slot index hslot hindex
    rw [hcapacity] at hslot
    rw [hbounds, hsucc] at hindex
    exact hg.held_filed hslot hindex
  · -- the new index is the one more that is live without a slot, exactly if its cell is full
    rw [dropped_filed, hbounds, hcapacity, hg.dropped_eq, List.range_succ, List.filter_append,
      List.length_append, hg.asked_eq, List.filter_cons, hlive, Bounds.stored_eq hproper hcell]
    by_cases hfree :
        (g.bounds.occupants particles (g.bounds.flatIndex cell) count).length < g.capacity.toNat
    · rw [if_pos hfree, decide_eq_true hfree]
      rfl
    · rw [if_neg hfree, decide_eq_false hfree]
      rfl

/-- One round of a build. -/
theorem Holds.insert {g : SlotGrid α} {particles : Array (Particle α)} {count : Nat}
    {p : Particle α} (hproper : g.bounds.Proper) (hg : g.Holds particles count)
    (hp : particles[count]? = some p) :
    ∃ g', g.insert count p = .ok g' ∧ g'.Keeps g ∧ g'.Holds particles (count + 1) := by
  cases halive : p.isAlive with
  | false => exact ⟨g, insert_eq_ok_iff.2 (.inl ⟨halive, rfl⟩), .refl g, hg.pass hproper hp halive⟩
  | true =>
    have hcell := (Bounds.cellAt_eq_some_iff hproper).2 ⟨p, hp, halive, rfl⟩
    exact ⟨_, insert_eq_ok_iff.2 (.inr ⟨halive, _, Bounds.cellOf_eq hproper _, rfl⟩),
      keeps_filed .., hg.filed hproper hcell⟩

/-- An index that was built from a list of particles. -/
structure Built (g : SlotGrid α) (particles : Array (Particle α)) : Prop where
  proper : g.bounds.Proper
  few : particles.size ≤ 2 ^ 32
  positions_eq : g.positions = particles.map Particle.position
  holds : g.Holds particles particles.size

/-- **A build counts the occupants of each place and stores the first ones**, whatever the counters
and the slots held before. -/
theorem exists_holding (g : SlotGrid α) (particles : Array (Particle α))
    (hproper : g.bounds.Proper) :
    ∃ g', g.build particles = .ok g' ∧
      g'.Keeps { g with positions := particles.map Particle.position } ∧
      g'.Holds particles particles.size := by
  let cleared : SlotGrid α := { g.clear with positions := particles.map Particle.position }
  have hempty : cleared.Holds particles 0 := by
    refine ⟨fun place => ?_, fun {place slot index} _ h => ?_, rfl⟩
    · exact asked_clear g place
    · cases h
  have hround {state : SlotGrid α} {count : Nat} {p : Particle α} (hp : particles[count]? = some p)
      (h : state.Keeps cleared ∧ state.Holds particles count) :
      ∃ next, state.insert count p = .ok next ∧ next.Keeps cleared ∧
        next.Holds particles (count + 1) := by
    obtain ⟨hkeeps, hholds⟩ := h
    have hproper' : state.bounds.Proper := by rw [hkeeps.bounds_eq]; exact hproper
    obtain ⟨next, hnext, hkeeps', hholds'⟩ := hholds.insert hproper' hp
    exact ⟨next, hnext, hkeeps'.trans hkeeps, hholds'⟩
  obtain ⟨g', hbuild, hkeeps, hholds⟩ :=
    exists_loop insertFrom insert (fun state count => state.Keeps cleared ∧
      state.Holds particles count) (fun _ _ => rfl) (fun _ _ _ _ => rfl) hround
      (List.nil_append _).symm ⟨.refl cleared, hempty⟩
  exact ⟨g', hbuild, ⟨hkeeps.bounds_eq, hkeeps.capacity_eq, hkeeps.positions_eq⟩, hholds⟩

/-- A build of particles whose indices are words. -/
theorem exists_build (g : SlotGrid α) {particles : Array (Particle α)} (hproper : g.bounds.Proper)
    (hfew : particles.size ≤ 2 ^ 32) :
    ∃ g', g.build particles = .ok g' ∧ g'.bounds = g.bounds ∧ g'.capacity = g.capacity ∧
      g'.Built particles := by
  obtain ⟨g', hbuild, hkeeps, hholds⟩ := g.exists_holding particles hproper
  exact ⟨g', hbuild, hkeeps.bounds_eq, hkeeps.capacity_eq, hkeeps.bounds_eq ▸ hproper, hfew,
    hkeeps.positions_eq, hholds⟩

/-- The occupants of a place that found a slot. -/
def seated (g : SlotGrid α) (particles : Array (Particle α)) (place : Nat) : List Nat :=
  (g.bounds.occupants particles place particles.size).take g.capacity.toNat

/-- As many slots of a place mean something as occupants found one. -/
theorem Built.filled_eq {g : SlotGrid α} {particles : Array (Particle α)} (hg : g.Built particles)
    (place : Nat) : g.filled place = (g.seated particles place).length := by
  rw [filled, hg.holds.asked_eq, seated, List.length_take, Nat.min_comm]

/-- The slots of a place hold the occupants that found one, in their order. -/
theorem Built.held_eq {g : SlotGrid α} {particles : Array (Particle α)} (hg : g.Built particles)
    {place slot index : Nat} (h : (g.seated particles place)[slot]? = some index) :
    g.held place slot = index.toUInt32 := by
  obtain ⟨hslot, -⟩ := List.getElem?_eq_some_iff.1 h
  have hcapacity : slot < g.capacity.toNat := Nat.lt_of_lt_of_le hslot (List.length_take_le _ _)
  rw [seated, List.getElem?_take_of_lt hcapacity] at h
  exact hg.holds.held_eq hcapacity h

/-- Whether some slot that means something holds an index. -/
def Stores (g : SlotGrid α) (index : UInt32) : Prop :=
  ∃ place slot, slot < g.filled place ∧ g.held place slot = index

/-- **The slots of a built index hold the stored indices** and no other. Old contents of the slots
do not count, because they lie past the counters. -/
theorem Built.stores_iff {g : SlotGrid α} {particles : Array (Particle α)} (hg : g.Built particles)
    {index : Nat} (hlt : index < particles.size) :
    g.Stores index.toUInt32 ↔ g.bounds.stored particles g.capacity.toNat index = true := by
  constructor
  · rintro ⟨place, slot, hslot, hheld⟩
    rw [hg.filled_eq] at hslot
    have hseat := List.getElem?_eq_getElem hslot
    have hmem := List.getElem_mem hslot
    generalize (g.seated particles place)[slot] = seat at hseat hmem
    rw [seated, Bounds.take_occupants hg.proper, List.mem_filter] at hmem
    have hseat_lt := (Bounds.mem_occupants_iff.1 hmem.1).1
    -- two small indices that are the same word are the same
    have hsame : seat = index := by
      rw [← toNat_toUInt32 (Nat.lt_of_lt_of_le hseat_lt hg.few), ← hg.held_eq hseat, hheld,
        toNat_toUInt32 (Nat.lt_of_lt_of_le hlt hg.few)]
    exact hsame ▸ hmem.2
  · intro hstored
    obtain ⟨cell, hcell⟩ : ∃ cell, g.bounds.cellAt particles index = some cell := by
      rw [Bounds.stored] at hstored
      split at hstored
      next cell hcell => exact ⟨cell, hcell⟩
      next => cases hstored
    have hmem : index ∈ g.seated particles (g.bounds.flatIndex cell) := by
      rw [seated, Bounds.take_occupants hg.proper, List.mem_filter, Bounds.mem_occupants_iff, hcell]
      exact ⟨⟨hlt, rfl⟩, hstored⟩
    obtain ⟨slot, hslot⟩ := List.mem_iff_getElem?.1 hmem
    refine ⟨g.bounds.flatIndex cell, slot, ?_, hg.held_eq hslot⟩
    rw [hg.filled_eq]
    exact (List.getElem?_eq_some_iff.1 hslot).1

end SlotGrid

/-! ## Searching -/

namespace RingCursor

variable {α : Type} [Scalar α]

/-- Whether a search accepts the index of a particle. -/
def accepts (c : RingCursor α) (particles : Array (Particle α)) (index : Nat) : Bool :=
  particles[index]?.any fun p => decide (p.position.distanceSquared c.point ≤ c.radiusSquared)

/-- The cells that a search has not opened yet, in the order of the walk. -/
def cellsAhead (c : RingCursor α) : List Cell :=
  if c.maxRing < c.ring then []
  else ((Ring.cells c.ring).map c.center.shift).drop c.k ++
    (List.range' (c.ring + 1) (c.maxRing - c.ring)).flatMap fun (ring : Nat) =>
      (Ring.cells ring).map c.center.shift

/-- The indices that a search finds in the slots of a place, from a slot on. -/
def inSlots (c : RingCursor α) (g : SlotGrid α) (particles : Array (Particle α))
    (place slot : Nat) : List Nat :=
  ((g.seated particles place).drop slot).filter (c.accepts particles)

/-- **The indices that a search has ahead of it**: those in the rest of the cell it reads, and those
in the cells it has not opened. -/
def ahead (c : RingCursor α) (g : SlotGrid α) (particles : Array (Particle α)) : List Nat :=
  (match c.cell with
    | some place => c.inSlots g particles place c.slot
    | none => []) ++
  (c.cellsAhead.filter g.contains).flatMap fun cell =>
    c.inSlots g particles (g.bounds.flatIndex cell) 0

/-- What a turn does to the list ahead. -/
def Turn.Consumes (g : SlotGrid α) (particles : Array (Particle α)) (c : RingCursor α) :
    Turn α → Prop
  | .found index later => ∃ i : Nat, i.toUInt32 = index ∧
      c.ahead g particles = i :: later.ahead g particles
  | .moved later => c.ahead g particles = later.ahead g particles
  | .finished => c.ahead g particles = []

variable {g : SlotGrid α} {particles : Array (Particle α)} {c : RingCursor α}

omit [Scalar α] in
/-- The next place of a ring comes off the cells ahead. -/
theorem cellsAhead_of_place (hring : ¬ c.maxRing < c.ring) (hk : ¬ c.places ≤ c.k) :
    c.cellsAhead = c.target :: cellsAhead { c with k := c.k + 1 } := by
  have hlt : c.k < ((Ring.cells c.ring).map c.center.shift).length := by
    simpa [Ring.cells, places] using hk
  rw [cellsAhead, if_neg hring, cellsAhead, if_neg hring, List.drop_eq_getElem_cons hlt]
  simp [Ring.cells, target, Cell.shift]

omit [Scalar α] in
/-- Behind the last place of a ring lie the cells of the next one. -/
theorem cellsAhead_of_ring (hring : ¬ c.maxRing < c.ring) (hk : c.places ≤ c.k) :
    c.cellsAhead = cellsAhead { c with ring := c.ring + 1, k := 0 } := by
  have hdone : ((Ring.cells c.ring).map c.center.shift).length ≤ c.k := by
    simpa [Ring.cells, places] using hk
  rw [cellsAhead, if_neg hring, List.drop_eq_nil_of_le hdone, List.nil_append, cellsAhead]
  -- past the last ring nothing is left on either side
  by_cases hlast : c.maxRing < c.ring + 1
  · rw [if_pos hlast, Nat.sub_eq_zero_of_le (by omega)]
    rfl
  · rw [if_neg hlast, List.drop_zero]
    obtain ⟨left, hleft⟩ : ∃ left, c.maxRing - c.ring = left + 1 :=
      ⟨c.maxRing - c.ring - 1, by omega⟩
    have hleft' : c.maxRing - (c.ring + 1) = left := by omega
    rw [hleft, hleft', List.range'_succ, List.flatMap_cons]

/-- Reading a slot that means something. -/
theorem exists_entry (hg : g.Built particles) {place slot : Nat} (hslot : slot < g.filled place) :
    ∃ index position, g.entry place slot = .ok (index.toUInt32, position) ∧
      c.accepts particles index = decide (position.distanceSquared c.point ≤ c.radiusSquared) ∧
      (g.seated particles place).drop slot =
        index :: (g.seated particles place).drop (slot + 1) := by
  rw [hg.filled_eq] at hslot
  have hseat := List.getElem?_eq_getElem hslot
  have hdrop := List.drop_eq_getElem_cons hslot
  have hmem := List.getElem_mem hslot
  generalize (g.seated particles place)[slot] = index at hseat hdrop hmem
  have hlt : index < particles.size := (Bounds.mem_occupants_iff.1 (List.mem_of_mem_take hmem)).1
  refine ⟨index, particles[index].position, ?_, ?_, hdrop⟩
  · rw [SlotGrid.entry, hg.held_eq hseat]
    exact bind_eq_ok_iff.2 ⟨_, Bounds.fetch_position hg.few hg.positions_eq hlt, rfl⟩
  · rw [accepts, Array.getElem?_eq_getElem hlt, Option.any_some]

/-- A turn in the middle of a cell yields the next index that is close enough. -/
theorem exists_turn_of_cell (hg : g.Built particles) {place : Nat} (hcell : c.cell = some place) :
    ∃ t, turn g c = .ok t ∧ t.Consumes g particles c := by
  have hahead : c.ahead g particles = c.inSlots g particles place c.slot ++
      (c.cellsAhead.filter g.contains).flatMap fun cell =>
        c.inSlots g particles (g.bounds.flatIndex cell) 0 := by
    rw [ahead, hcell]
  by_cases hslot : c.slot < g.filled place
  · obtain ⟨index, position, hentry, haccepts, hdrop⟩ := exists_entry (c := c) hg hslot
    simp only [turn, hcell, if_pos hslot, hentry]
    by_cases hclose : position.distanceSquared c.point ≤ c.radiusSquared
    · refine ⟨_, if_pos hclose, index, rfl, ?_⟩
      rw [hahead, inSlots, hdrop, List.filter_cons, haccepts, decide_eq_true hclose, if_pos rfl]
      rfl
    · refine ⟨_, if_neg hclose, ?_⟩
      change c.ahead g particles = _
      rw [hahead, inSlots, hdrop, List.filter_cons, haccepts, decide_eq_false hclose,
        if_neg Bool.false_ne_true]
      rfl
  · refine ⟨.moved { c with cell := none }, by simp only [turn, hcell, if_neg hslot]; rfl, ?_⟩
    change c.ahead g particles = _
    rw [hahead, inSlots, List.drop_eq_nil_of_le (by rw [← hg.filled_eq]; omega)]
    rfl

/-- A turn between two cells yields nothing and goes on with the walk, until that has ended. -/
theorem exists_turn_of_walk (hcell : c.cell = none) :
    ∃ t, turn g c = .ok t ∧ t.Consumes g particles c := by
  have hahead : c.ahead g particles = (c.cellsAhead.filter g.contains).flatMap fun cell =>
      c.inSlots g particles (g.bounds.flatIndex cell) 0 := by
    rw [ahead, hcell, List.nil_append]
  -- the search is behind the last ring
  by_cases hring : c.maxRing < c.ring
  · refine ⟨.finished, by simp only [turn, hcell, if_pos hring]; rfl, ?_⟩
    change c.ahead g particles = []
    rw [hahead, cellsAhead, if_pos hring]
    rfl
  -- the ring has been walked, the next one is ahead as it was
  by_cases hk : c.places ≤ c.k
  · refine ⟨.moved { c with ring := c.ring + 1, k := 0 },
      by simp only [turn, hcell, if_neg hring, if_pos hk]; rfl, ?_⟩
    change c.ahead g particles = _
    rw [hahead, cellsAhead_of_ring hring hk, ahead]
    simp only [hcell, List.nil_append]
    rfl
  -- a place of the ring: its cell is opened if it is one of the grid
  by_cases hcontains : g.contains c.target = true
  · refine ⟨.moved { c with
        k := c.k + 1, cell := some (g.bounds.flatIndex c.target), slot := 0 },
      by simp only [turn, hcell, if_neg hring, if_neg hk, if_pos hcontains]; rfl, ?_⟩
    change c.ahead g particles = _
    rw [hahead, cellsAhead_of_place hring hk, List.filter_cons, if_pos hcontains,
      List.flatMap_cons]
    rfl
  · refine ⟨.moved { c with k := c.k + 1 },
      by simp only [turn, hcell, if_neg hring, if_neg hk, if_neg hcontains]; rfl, ?_⟩
    change c.ahead g particles = _
    rw [hahead, cellsAhead_of_place hring hk, List.filter_cons, if_neg hcontains, ahead]
    simp only [hcell, List.nil_append]
    rfl

/-- **Every turn succeeds**, and takes from the list ahead exactly what it yields. Turns between
cells take nothing from it, and turns within a cell take its head or pass over a slot that is not
within the radius. -/
theorem exists_turn (hg : g.Built particles) (c : RingCursor α) :
    ∃ t, turn g c = .ok t ∧ t.Consumes g particles c := by
  cases hcell : c.cell with
  | some place => exact exists_turn_of_cell hg hcell
  | none => exact exists_turn_of_walk hcell

/-- **A search finds the list it has ahead of it.** The induction is on the turns, and the list
ahead is what they have in common. -/
theorem drain_eq (hg : g.Built particles) (c : RingCursor α) (found : Array UInt32) :
    drain g c found = .ok (found ++ ((c.ahead g particles).map Nat.toUInt32).toArray) := by
  fun_induction drain g c found with
  | case1 c found breach hturn =>
    obtain ⟨t, ht, -⟩ := exists_turn hg c
    cases hturn.symm.trans ht
  | case2 c found index later hturn ih =>
    obtain ⟨t, ht, hconsumes⟩ := exists_turn hg c
    cases hturn.symm.trans ht
    obtain ⟨i, rfl, hahead⟩ := hconsumes
    rw [ih, hahead, List.map_cons]
    simp
  | case3 c found later hturn ih =>
    obtain ⟨t, ht, hconsumes⟩ := exists_turn hg c
    cases hturn.symm.trans ht
    rw [ih, show c.ahead g particles = later.ahead g particles from hconsumes]
  | case4 c found hturn =>
    obtain ⟨t, ht, hconsumes⟩ := exists_turn hg c
    cases hturn.symm.trans ht
    rw [show c.ahead g particles = [] from hconsumes]
    simp

omit [Scalar α] in
/-- Before its first turn a search has the whole walk ahead of it. -/
theorem cellsAhead_start (hring : c.ring = 0) (hk : c.k = 0) :
    c.cellsAhead = Ring.walk c.center c.maxRing := by
  rw [cellsAhead, hring, hk, if_neg (Nat.not_lt_zero _), Ring.walk, List.range_eq_range',
    List.range'_succ, List.flatMap_cons]
  rfl

end RingCursor

namespace SlotGrid

variable {α : Type} [Scalar α] {g : SlotGrid α} {particles : Array (Particle α)}

omit [Scalar α] in
theorem contains_iff (h : g.bounds.Proper) {cell : Cell} :
    g.contains cell = true ↔ g.bounds.Has cell := by
  rw [contains, decide_eq_true_eq, Bounds.has_iff, toInt_toInt32 h.cols_lt, toInt_toInt32 h.rows_lt]
  omega

/-- The cells of the grid that a search over some rings walks through. -/
def walked (g : SlotGrid α) (center : Cell) (rings : Nat) : List Cell :=
  (Ring.walk center rings).filter g.contains

/-- **What a query finds.** Beside the equation for buckets this is the other half of their
agreement, with the same particles on the right side. -/
theorem Built.query_eq (hg : g.Built particles) (point : Vec2 α) {radius : α} {rings : Nat}
    (exclude : Option UInt32) (hrings : g.bounds.ringsFor radius = .ok rings) :
    g.query point radius exclude =
      .ok ((g.bounds.gather particles (fun index =>
          BucketGrid.Search.keeps ⟨point, radius * radius, exclude⟩ particles index &&
            g.bounds.stored particles g.capacity.toNat index)
        (g.walked (g.bounds.nearest (g.bounds.freeCell point)) rings)).map
          Nat.toUInt32).toArray := by
  let c : RingCursor α :=
    { point := point, radiusSquared := radius * radius
      center := g.bounds.nearest (g.bounds.freeCell point), maxRing := rings }
  have hstart : RingCursor.start g point radius = .ok c :=
    bind_eq_ok_iff.2 ⟨_, Bounds.cellOf_eq hg.proper point, bind_eq_ok_iff.2 ⟨_, hrings, rfl⟩⟩
  refine bind_eq_ok_iff.2 ⟨c, hstart, bind_eq_ok_iff.2 ⟨_, RingCursor.drain_eq hg c #[], ?_⟩⟩
  have hahead : c.ahead g particles =
      (g.walked (g.bounds.nearest (g.bounds.freeCell point)) rings).flatMap fun cell =>
        c.inSlots g particles (g.bounds.flatIndex cell) 0 := by
    rw [RingCursor.ahead, RingCursor.cellsAhead_start rfl rfl]
    rfl
  -- the index that is left out is left out at the end, which comes to the same
  have hfilter : (fun index : UInt32 => some index != exclude) =
      fun index => !(BucketGrid.Search.leavesOut ⟨point, radius * radius, exclude⟩ index) := by
    funext index
    cases exclude with
    | none => rfl
    | some excluded => simp [BucketGrid.Search.leavesOut, bne]
  rw [hahead, hfilter, Array.empty_append, List.filter_toArray, List.filter_map,
    List.filter_flatMap]
  simp only [RingCursor.inSlots, seated, List.drop_zero, Bounds.take_occupants hg.proper,
    List.filter_filter, ← Bool.and_assoc]
  rfl

end SlotGrid

end ParticleDynamics
