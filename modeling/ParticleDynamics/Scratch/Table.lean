import ParticleDynamics.Scalar

/-!
# The scratch table

One row of scalars per particle, all rows in one flat array of cells. Rows follow the particle
array: the table is resized when the number of particles changes and compacted together with it, so
that a row stays with its particle.

`rowsList` is the view in which the table is a plain list of rows; the operations are meant to be
understood through it.

Dropping rows happens in place: each row that is kept is copied down over one that is not needed any
more, and the rest is cut off. `read`, `write` and `resized` are the operations as a machine does
them, where the place of a cell is an address of 64 bits: it is computed modulo the number of
addresses before it is compared with the number of cells, so that the address of a row that is far
enough out may be that of a cell of another row.
-/

namespace ParticleDynamics

/-- A table of rows of `stride` scalars each. -/
structure Table (α : Type) where
  /-- the number of scalars in a row -/
  stride : Nat
  /-- the cells, row after row -/
  cells : Array α

namespace Table

variable {α : Type}

/-- A table without rows. -/
def create (stride : Nat) : Table α := ⟨stride, #[]⟩

/-- The number of rows. -/
def rows (t : Table α) : Nat := if t.stride = 0 then 0 else t.cells.size / t.stride

/-- The cells of one row. -/
def row (t : Table α) (index : Nat) : List α :=
  (t.cells.extract (index * t.stride) ((index + 1) * t.stride)).toList

/-- The table as a list of rows. -/
def rowsList (t : Table α) : List (List α) := (List.range t.rows).map t.row

/-- The scalar in a slot of a row. -/
def get? (t : Table α) (index slot : Nat) : Option α :=
  if slot < t.stride then t.cells[index * t.stride + slot]? else none

/-- Whether the table has a slot of a row. -/
def holds (t : Table α) (index slot : Nat) : Bool :=
  decide (slot < t.stride ∧ index * t.stride + slot < t.cells.size)

/-- The table with a scalar written into a slot of a row; without such a place it stays. -/
def set (t : Table α) (index slot : Nat) (value : α) : Table α :=
  if t.holds index slot then
    { t with cells := t.cells.modify (index * t.stride + slot) fun _ => value }
  else t

/-- The table with a number of cells: new ones are zeroed, surplus ones are dropped from the end. -/
def resizeTo [Zero α] (t : Table α) (wanted : Nat) : Table α :=
  { t with
    cells :=
      if wanted ≤ t.cells.size then t.cells.extract 0 wanted
      else t.cells ++ Array.replicate (wanted - t.cells.size) 0 }

/-- The table with `count` rows: new ones are zeroed, surplus ones are dropped from the end. -/
def resize [Zero α] (t : Table α) (count : Nat) : Table α := t.resizeTo (count * t.stride)

/-- The cells with some values written over them from a place on. -/
def overwrite (cells : Array α) (place : Nat) : List α → Array α
  | [] => cells
  | value :: rest => overwrite (cells.setIfInBounds place value) (place + 1) rest

/-- The table with one row copied over another one. -/
def copyRow (t : Table α) (source target : Nat) : Table α :=
  { t with cells := overwrite t.cells (target * t.stride) (t.row source) }

/-- The table with one row copied to the place of another one, unless it is there already. -/
def moveRow (t : Table α) (source target : Nat) : Table α :=
  if target = source then t else t.copyRow source target

/-- Move the rows whose flag is set down to the front, where `filled` rows are already; `index` is
the row of the first flag. The number tells how many rows are at the front in the end. -/
def packFrom (t : Table α) (filled index : Nat) : List Bool → Table α × Nat
  | [] => (t, filled)
  | flag :: flags =>
    if index < t.rows then
      if flag then packFrom (t.moveRow index filled) (filled + 1) (index + 1) flags
      else packFrom t filled (index + 1) flags
    else
      (t, filled)

/-- The table with the rows whose flag is set, in order. A row without a flag is dropped. -/
def retainRows (t : Table α) (keep : List Bool) : Table α :=
  let (packed, filled) := t.packFrom 0 0 keep
  { packed with cells := packed.cells.extract 0 (filled * t.stride) }

/-! ### With addresses -/

/-- The bytes of a cell. -/
def cellBytes : Nat := 4

/-- The number of addresses. -/
def addresses : Nat := 18446744073709551616

/-- The address of a slot of a row. -/
def address (t : Table α) (index slot : Nat) : Nat := (index * t.stride + slot) % addresses

/-- Look up the scalar in a slot of a row. -/
def read (t : Table α) (index slot : Nat) : Option α :=
  if slot < t.stride then t.cells[t.address index slot]? else none

/-- Write a scalar into a slot of a row, and tell whether there is such a place. -/
def write (t : Table α) (index slot : Nat) (value : α) : Bool × Table α :=
  if slot < t.stride ∧ t.address index slot < t.cells.size then
    (true, { t with cells := t.cells.modify (t.address index slot) fun _ => value })
  else (false, t)

/-- The table with the cells of `count` rows, provided that they can exist. -/
def resized [Zero α] (t : Table α) (count : Nat) : Except Breach (Table α) := do
  let wanted := count * t.stride % addresses
  reserve wanted cellBytes
  return t.resizeTo wanted

/-! ### Reading what was written -/

@[simp] theorem stride_resize [Zero α] (t : Table α) (count : Nat) :
    (t.resize count).stride = t.stride := rfl

@[simp] theorem stride_moveRow (t : Table α) (source target : Nat) :
    (t.moveRow source target).stride = t.stride := by
  unfold moveRow
  split <;> rfl

@[simp] theorem stride_packFrom (t : Table α) (filled index : Nat) (keep : List Bool) :
    (t.packFrom filled index keep).1.stride = t.stride := by
  induction keep generalizing t filled index with
  | nil => rfl
  | cons flag flags ih =>
    rw [packFrom]
    split
    · split
      · rw [ih, stride_moveRow]
      · exact ih ..
    · rfl

@[simp] theorem stride_retainRows (t : Table α) (keep : List Bool) :
    (t.retainRows keep).stride = t.stride := stride_packFrom t 0 0 keep

/-- Writing never changes the shape. -/
theorem stride_set (t : Table α) (index slot : Nat) (value : α) :
    (t.set index slot value).stride = t.stride := by
  unfold set
  split <;> rfl

/-- A resized table has the cells that are asked for. -/
theorem size_resizeTo [Zero α] (t : Table α) (wanted : Nat) :
    (t.resizeTo wanted).cells.size = wanted := by
  unfold resizeTo
  dsimp only
  split <;> simp <;> omega

/-- A resized table has exactly the cells that its rows need. -/
theorem size_resize [Zero α] (t : Table α) (count : Nat) :
    (t.resize count).cells.size = count * t.stride := t.size_resizeTo _

/-- A place that is there reads back what was written. -/
theorem get?_set_self {t : Table α} {index slot : Nat} {value : α}
    (h : t.holds index slot = true) : (t.set index slot value).get? index slot = some value := by
  have hplace := of_decide_eq_true h
  simp [set, h, get?, hplace.1, hplace.2, Array.getElem_modify]

end Table

end ParticleDynamics
