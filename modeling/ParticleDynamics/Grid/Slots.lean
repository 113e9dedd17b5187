import ParticleDynamics.Block.Layout
import ParticleDynamics.Grid.Ring
import ParticleDynamics.Particle
import Std.Data.HashMap

/-!
# The slot index

The index that the generated program keeps on the device: a fixed number of slots per cell, and a
counter per cell. Inserting takes the next number of the counter and stores the index only when the
number is a free slot; a particle that finds its cell full is dropped and counted. Counters keep
growing past the capacity, so they count all particles of a cell.

`SlotGrid` performs these insertions one after the other, in index order. The slots of all cells lie
side by side in one row, those of a cell next to each other. Clearing sets the counters back and
leaves the slots as they are, so what an earlier build wrote stays until it is overwritten, and only
the counter of a cell tells which of its slots mean something.

Counters and slots that were never written hold zero and take no room, so a grid costs what was put
into it. `SlotGrid.allocate` refuses a shape for which the device could not have all of them.

A search walks the rings around the cell of its centre with a `RingCursor`, which returns one index
per call:

* inside a cell it goes through the slots in order;
* between cells it goes through the places of a ring, and skips those outside the grid;
* past the last ring it is exhausted, and stays so.
-/

namespace ParticleDynamics

/-- The value that stands for "no further neighbour" where an index is expected. -/
def neighborEnd : UInt32 := 4294967295

/-- A spatial index with a fixed number of slots per cell. -/
structure SlotGrid (α : Type) where
  /-- the cells -/
  bounds : Bounds α
  /-- the number of slots per cell -/
  capacity : UInt32
  /-- how many particles asked for a slot, by the place of the cell -/
  counts : Std.HashMap Nat Nat
  /-- the indices in the slots of all cells, by the place of the slot -/
  slots : Std.HashMap Nat UInt32
  /-- the positions at the time of the last build -/
  positions : Array (Vec2 α)
  /-- how many particles found their cell full -/
  dropped : Nat

namespace SlotGrid

variable {α : Type} [Scalar α]

/-- An empty index over fixed bounds, with at least one slot per cell. -/
def create (bounds : Bounds α) (maxPerCell : UInt32) : SlotGrid α :=
  { bounds := bounds
    capacity := max maxPerCell 1
    counts := {}
    slots := {}
    positions := #[]
    dropped := 0 }

/-- An empty index over fixed bounds, provided that the number of cells is a word and that counters
and slots can exist. -/
def allocate (bounds : Bounds α) (maxPerCell : UInt32) : Except Breach (SlotGrid α) := do
  let grid := create bounds maxPerCell
  let cells ← fitWord "multiply" bounds.cellCount
  reserve cells wordBytes
  reserve (cells * grid.capacity.toNat) wordBytes
  return grid

/-- How many particles asked the cell at a place for a slot. -/
def asked (g : SlotGrid α) (place : Nat) : Nat := g.counts.getD place 0

/-- The place of a slot of the cell at a place. -/
def slotPlace (g : SlotGrid α) (place slot : Nat) : Nat := place * g.capacity.toNat + slot

/-- What lies in a slot of the cell at a place. -/
def held (g : SlotGrid α) (place slot : Nat) : UInt32 := g.slots.getD (g.slotPlace place slot) 0

/-- The index with all counters set back. The slots stay as they are. -/
def clear (g : SlotGrid α) : SlotGrid α := { g with counts := {}, dropped := 0 }

/-! ### Building -/

/-- The index with `index` in the next slot of a place, if there is one. Either way the place counts
one more. -/
def filed (g : SlotGrid α) (place index : Nat) : SlotGrid α :=
  let slot := g.asked place
  let counted := { g with counts := g.counts.insert place (slot + 1) }
  if slot < g.capacity.toNat then
    { counted with slots := g.slots.insert (g.slotPlace place slot) index.toUInt32 }
  else
    { counted with dropped := g.dropped + 1 }

/-- The index with one more particle, unless it is dead. -/
def insert (g : SlotGrid α) (index : Nat) (p : Particle α) : Except Breach (SlotGrid α) :=
  if p.isAlive then do
    let cell ← g.bounds.cellOf p.position
    return g.filed (g.bounds.flatIndex cell) index
  else
    .ok g

/-- The index with the particles of a list inserted in order, the first one at `index`. -/
def insertFrom (g : SlotGrid α) (index : Nat) : List (Particle α) → Except Breach (SlotGrid α)
  | [] => .ok g
  | p :: rest => do insertFrom (← g.insert index p) (index + 1) rest

/-- The index of the given particles, whatever was indexed before. -/
def build (g : SlotGrid α) (particles : Array (Particle α)) : Except Breach (SlotGrid α) :=
  insertFrom { g.clear with positions := particles.map Particle.position } 0 particles.toList

/-- The warning about dropped particles, when there are any. -/
def dropWarning (dropped : Nat) (capacity : UInt32) : List String :=
  if dropped = 0 then []
  else
    ["GPU grid dropped " ++ toString dropped ++ " insertions (cell capacity " ++
      toString capacity.toNat ++ ")"]

/-- How many slots of the cell at a place mean something. -/
def filled (g : SlotGrid α) (place : Nat) : Nat := min (g.asked place) g.capacity.toNat

/-- The index in a slot of a cell, with the position it was inserted at. -/
def entry (g : SlotGrid α) (place slot : Nat) : Except Breach (UInt32 × Vec2 α) := do
  let index := g.held place slot
  let position ← fetch g.positions index.toNat
  return (index, position)

omit [Scalar α] in
/-- A cleared index counts nothing in any cell. -/
@[simp] theorem asked_clear (g : SlotGrid α) (place : Nat) : g.clear.asked place = 0 := by
  simp [asked, clear]

omit [Scalar α] in
/-- The counters after one of them was set. -/
theorem getD_counts_insert (g : SlotGrid α) (place other count : Nat) :
    (g.counts.insert place count).getD other 0 =
      if place = other then count else g.asked other := by
  simp [asked, Std.HashMap.getD_insert]

omit [Scalar α] in
/-- **No two slots lie at one place**, as long as they are slots of a cell. -/
theorem slotPlace_inj {g : SlotGrid α} {place other slot slot' : Nat}
    (hslot : slot < g.capacity.toNat) (hslot' : slot' < g.capacity.toNat) :
    g.slotPlace place slot = g.slotPlace other slot' ↔ place = other ∧ slot = slot' :=
  rowMajor_inj hslot hslot'

/-- Whether a cell lies in the grid. -/
def contains (g : SlotGrid α) (cell : Cell) : Bool :=
  decide (0 ≤ cell.x ∧ 0 ≤ cell.y ∧ cell.x < g.bounds.cols.toInt32.toInt ∧
    cell.y < g.bounds.rows.toInt32.toInt)

end SlotGrid

/-- A search in progress: where it stands on its walk around the centre. -/
structure RingCursor (α : Type) where
  /-- the centre of the search -/
  point : Vec2 α
  /-- the square of the radius -/
  radiusSquared : α
  /-- the cell of the centre -/
  center : Cell
  /-- the last ring to visit -/
  maxRing : Nat
  /-- the ring being visited -/
  ring : Nat := 0
  /-- the next place on the ring -/
  k : Nat := 0
  /-- the cell being read, if any -/
  cell : Option Nat := none
  /-- the next slot of that cell -/
  slot : Nat := 0

namespace RingCursor

variable {α : Type} [Scalar α]

/-- A search of `radius` around `point`, before its first result. -/
def start (g : SlotGrid α) (point : Vec2 α) (radius : α) : Except Breach (RingCursor α) := do
  let center ← g.bounds.cellOf point
  let maxRing ← g.bounds.ringsFor radius
  return { point := point, radiusSquared := radius * radius, center := center, maxRing := maxRing }

/-- The number of places on the ring being visited. -/
def places (c : RingCursor α) : Nat := (Ring.length (Int.ofNat c.ring)).toNat

/-- The cell at the next place of the ring. -/
def target (c : RingCursor α) : Cell :=
  let offset := Ring.offset (Int.ofNat c.ring) (Int.ofNat c.k)
  ⟨c.center.x + offset.x, c.center.y + offset.y⟩

/-- What one turn of a search comes to. -/
inductive Turn (α : Type) where
  /-- an index within the radius was read -/
  | found (index : UInt32) (rest : RingCursor α)
  /-- the search moved on without a result -/
  | moved (rest : RingCursor α)
  /-- there is nothing left to visit -/
  | finished

/-- One turn of a search: read a slot, leave a cell, pass a place of the ring, or go on to the next
ring. -/
def turn (g : SlotGrid α) (c : RingCursor α) : Except Breach (Turn α) :=
  match c.cell with
  | some cell =>
    if c.slot < g.filled cell then do
      let (index, position) ← g.entry cell c.slot
      let rest := { c with slot := c.slot + 1 }
      if position.distanceSquared c.point ≤ c.radiusSquared then return .found index rest
      else return .moved rest
    else
      return .moved { c with cell := none }
  | none =>
    if c.maxRing < c.ring then return .finished
    else if c.places ≤ c.k then return .moved { c with ring := c.ring + 1, k := 0 }
    else if g.contains c.target then
      let place := g.bounds.flatIndex c.target
      return .moved { c with k := c.k + 1, cell := some place, slot := 0 }
    else
      return .moved { c with k := c.k + 1 }

/-- What is left of a search, the weightiest part first: rings, places of the ring, whether a cell
is open, slots of that cell. Every turn lowers it. -/
def rest (g : SlotGrid α) (c : RingCursor α) : Nat × Nat × Nat × Nat :=
  match c.cell with
  | some cell => (c.maxRing + 1 - c.ring, c.places - c.k, 1, g.filled cell - c.slot)
  | none => (c.maxRing + 1 - c.ring, c.places - c.k, 0, 0)

/-- The search that a turn leaves behind, if it leaves one. -/
def Turn.after : Turn α → Option (RingCursor α)
  | .found _ later => some later
  | .moved later => some later
  | .finished => none

/-- **Every turn makes progress.** -/
theorem rest_turn {g : SlotGrid α} {c later : RingCursor α} {t : Turn α}
    (h : turn g c = .ok t) (hlater : t.after = some later) :
    Prod.Lex (· < ·) (Prod.Lex (· < ·) (Prod.Lex (· < ·) (· < ·))) (rest g later) (rest g c) := by
  unfold turn at h
  split at h
  next cell hcell =>
    split at h
    next hslot =>
      -- one slot of the open cell less
      have lower : Prod.Lex (· < ·) (Prod.Lex (· < ·) (Prod.Lex (· < ·) (· < ·)))
          (rest g { c with slot := c.slot + 1 }) (rest g c) := by
        simp only [rest, hcell, places]
        exact .right _ (.right _ (.right _ (by omega)))
      cases hentry : g.entry cell c.slot with
      | error b => simp [hentry, bind, Except.bind] at h
      | ok found =>
        simp only [hentry, bind, Except.bind] at h
        split at h <;> obtain rfl := Except.ok.inj h <;> obtain rfl := Option.some.inj hlater <;>
          exact lower
    next =>
      -- the cell is closed
      obtain rfl := Except.ok.inj h
      obtain rfl := Option.some.inj hlater
      simp only [rest, hcell, places]
      exact .right _ (.right _ (.left _ _ (by omega)))
  next hcell =>
    split at h
    · obtain rfl := Except.ok.inj h
      cases hlater
    next hring =>
      split at h
      · -- one ring less, whatever places the next one has
        obtain rfl := Except.ok.inj h
        obtain rfl := Option.some.inj hlater
        simp only [rest, hcell]
        exact .left _ _ (by omega)
      next hk =>
        split at h
        · -- one place of the ring less, be it a cell of the grid or not
          obtain rfl := Except.ok.inj h
          obtain rfl := Option.some.inj hlater
          simp only [rest, hcell, places] at hk ⊢
          exact .right _ (.left _ _ (by omega))
        · obtain rfl := Except.ok.inj h
          obtain rfl := Option.some.inj hlater
          simp only [rest, hcell, places] at hk ⊢
          exact .right _ (.left _ _ (by omega))

/-- The next index within the radius, or none when the search is exhausted, together with the
search as it stands afterwards. -/
def next (g : SlotGrid α) (c : RingCursor α) : Except Breach (Option UInt32 × RingCursor α) :=
  match _hturn : turn g c with
  | .error breach => .error breach
  | .ok (.found index later) => .ok (some index, later)
  | .ok (.moved later) => next g later
  | .ok .finished => .ok (none, c)
termination_by rest g c
decreasing_by exact rest_turn _hturn rfl

/-- The next index within the radius, or `neighborEnd` when the search is exhausted, together with
the search as it stands afterwards. -/
def nextRaw (g : SlotGrid α) (c : RingCursor α) : Except Breach (UInt32 × RingCursor α) := do
  let (found, later) ← next g c
  return (found.getD neighborEnd, later)

/-- All further indices of a search, appended to those found so far. -/
def drain (g : SlotGrid α) (c : RingCursor α) (found : Array UInt32) :
    Except Breach (Array UInt32) :=
  match _hturn : turn g c with
  | .error breach => .error breach
  | .ok (.found index later) => drain g later (found.push index)
  | .ok (.moved later) => drain g later found
  | .ok .finished => .ok found
termination_by rest g c
decreasing_by all_goals exact rest_turn _hturn rfl

/-- An exhausted search stays exhausted. -/
theorem next_of_exhausted {g : SlotGrid α} {c : RingCursor α} (hcell : c.cell = none)
    (hring : c.maxRing < c.ring) : next g c = .ok (none, c) := by
  have hturn : turn g c = .ok .finished := by simp [turn, hcell, hring, pure, Except.pure]
  unfold next
  split <;> simp_all

end RingCursor

namespace SlotGrid

variable {α : Type} [Scalar α]

/-- The indices within `radius` of `point`, without the excluded one, ring by ring. -/
def query (g : SlotGrid α) (point : Vec2 α) (radius : α) (exclude : Option UInt32) :
    Except Breach (Array UInt32) := do
  let found ← RingCursor.drain g (← RingCursor.start g point radius) #[]
  return found.filter fun index => some index != exclude

end SlotGrid

end ParticleDynamics
