import ParticleDynamics.Module.Param
import ParticleDynamics.Particle
import ParticleDynamics.Scratch.Layout
import ParticleDynamics.Scratch.Table

/-!
# What a module does with one particle

A module is called once for every live particle. What it may look at without changing anything is a
`View`: its parameters, the particles as they were when the pass began, and the neighbour search.
What it does is a `Procedure`: a tree of the few operations that touch live data.

* It reads and writes **its own particle**.
* It reads **any declared field** of any row, and writes the fields it declared itself.
* It reads and writes the **reserved slots** of the row that its index names.
* It ends with a result, with a **fault**, or with a **crash**.

The index is the module's to change. It begins as the place of the particle, and a module may assign
another number to it (`View.assignIndex`) and go on with that. From then on it is the row of this
number whose reserved slots the module reads and writes, and the particle of this number that is left
out when it looks for neighbours, while the particle that it reads and writes stays the same one.

What matters is what is absent. No operation writes another particle or a field of another module,
so no module can do these things, whatever its code. A failed operation hands its fault to the code
that asked for it; `require` passes it on.

`Procedure.run` gives the tree its meaning. A call that fails keeps what it did before: nothing is
rolled back.
-/

namespace ParticleDynamics

/-- What a module sees while it is called for one particle. -/
structure View (α : Type) where
  /-- where the particle stands in the live array, unless the module has assigned another number -/
  index : UInt32
  /-- the duration of the step -/
  dt : α
  /-- the parameters of the module -/
  params : ParamBag α
  /-- all particles as they were when the pass began -/
  snapshot : Array (Particle α)
  /-- the indices within a radius of a point, without an excluded one -/
  search : Vec2 α → α → Option UInt32 → Except Breach (Array UInt32)

namespace View

variable {α : Type} [Scalar α]

/-- How many particles there are, dead ones included. -/
def count (v : View α) : Nat := v.snapshot.size

/-- Another particle as it was when the pass began. -/
def other (v : View α) (index : UInt32) : Option (Particle α) := v.snapshot[index.toNat]?

/-- Whether the particle at an index was alive when the pass began. -/
def isAlive (v : View α) (index : UInt32) : Bool := (v.other index).any Particle.isAlive

/-- What the module sees after it has assigned another number to its index. -/
def assignIndex (v : View α) (index : UInt32) : View α := { v with index := index }

/-- The particles within `radius` of `point` that were alive when the pass began, without the one
that the index names. -/
def neighborsOf (v : View α) (point : Vec2 α) (radius : α) : Except Breach (Array UInt32) := do
  let found ← v.search point radius (some v.index)
  return found.filter v.isAlive

end View

/-- Something a module leaves for an observer; it has no effect on the simulation. -/
inductive Note (α : Type) where
  /-- a value that it computed -/
  | value (value : α)
  /-- indices that it found -/
  | indices (indices : Array UInt32)

/-- A tree of the operations that a module performs on live data, ending in a `β`. -/
inductive Procedure (α β : Type) where
  /-- end with a result -/
  | done (result : β)
  /-- end with a fault -/
  | fault (message : String)
  /-- end with a crash, which may carry a text -/
  | crash (text : Option String)
  /-- read the particle -/
  | read (next : Particle α → Procedure α β)
  /-- write the particle -/
  | write (particle : Particle α) (next : Procedure α β)
  /-- read a field of a row; without an owner it is one of the module's own -/
  | readField (owner : Option String) (name : String) (row : UInt32)
      (next : Except String α → Procedure α β)
  /-- write one of the module's own fields in a row -/
  | writeField (name : String) (row : UInt32) (value : α)
      (next : Except String Unit → Procedure α β)
  /-- read a reserved slot of the row that the index names -/
  | readReserved (row : UInt32) (slot : Reserved) (next : Except String α → Procedure α β)
  /-- write a reserved slot of the row that the index names -/
  | writeReserved (row : UInt32) (slot : Reserved) (value : α)
      (next : Except String Unit → Procedure α β)
  /-- leave a note -/
  | note (note : Note α) (next : Procedure α β)

namespace Procedure

variable {α β γ : Type}

/-! ### Sequencing -/

/-- Do one thing, then another that may depend on its result. -/
def bind (p : Procedure α β) (f : β → Procedure α γ) : Procedure α γ :=
  match p with
  | done result => f result
  | fault message => fault message
  | crash text => crash text
  | read next => read fun particle => (next particle).bind f
  | write particle next => write particle (next.bind f)
  | readField owner name row next => readField owner name row fun r => (next r).bind f
  | writeField name row value next => writeField name row value fun r => (next r).bind f
  | readReserved row slot next => readReserved row slot fun r => (next r).bind f
  | writeReserved row slot value next => writeReserved row slot value fun r => (next r).bind f
  | note n next => note n (next.bind f)

instance : Monad (Procedure α) where
  pure := done
  bind := bind

@[simp] theorem pure_eq (result : β) : (pure result : Procedure α β) = done result := rfl

@[simp] theorem bind_eq (p : Procedure α β) (f : β → Procedure α γ) : p >>= f = p.bind f := rfl

/-- Right identity. -/
@[simp] theorem bind_done (p : Procedure α β) : p.bind done = p := by
  induction p with
  | done result => rfl
  | fault message => rfl
  | crash text => rfl
  | read next ih => exact congrArg read (funext ih)
  | write particle next ih => exact congrArg (write particle) ih
  | readField owner name row next ih => exact congrArg (readField owner name row) (funext ih)
  | writeField name row value next ih => exact congrArg (writeField name row value) (funext ih)
  | readReserved row slot next ih => exact congrArg (readReserved row slot) (funext ih)
  | writeReserved row slot value next ih => exact congrArg (writeReserved row slot value) (funext ih)
  | note n next ih => exact congrArg (note n) ih

/-! ### The operations under their own names -/

/-- Go on with a result, or end with the fault in its place. -/
def require : Except String β → Procedure α β
  | .ok result => done result
  | .error message => fault message

/-- Go on with a result, or end with a crash in its place. -/
def sound : Except Breach β → Procedure α β
  | .ok result => done result
  | .error breach => crash (some breach.message)

/-- The live particle. -/
def self : Procedure α (Particle α) := read done

/-- Change the live particle. -/
def update (f : Particle α → Particle α) : Procedure α Unit :=
  read fun particle => write (f particle) (done ())

/-- The value of one of the module's own fields in a row. -/
def fieldOf (name : String) (row : UInt32) : Procedure α α := readField none name row require

/-- The value of a field of another module in a row. -/
def foreignField (owner name : String) (row : UInt32) : Procedure α α :=
  readField (some owner) name row require

/-- Write one of the module's own fields in a row. -/
def setFieldOf (name : String) (row : UInt32) (value : α) : Procedure α Unit :=
  writeField name row value require

/-- A position kept in two reserved slots of a row. -/
def readPair (row : UInt32) (x y : Reserved) : Procedure α (Vec2 α) := do
  let first ← readReserved row x require
  let second ← readReserved row y require
  return ⟨first, second⟩

/-- Write a position into two reserved slots of a row. -/
def writePair (row : UInt32) (x y : Reserved) (position : Vec2 α) : Procedure α Unit := do
  writeReserved row x position.x require
  writeReserved row y position.y require

/-- The position before the last integration. -/
def prePosition (v : View α) : Procedure α (Vec2 α) := readPair v.index .preX .preY

/-- The position right after the last integration, before any constraint. -/
def postPosition (v : View α) : Procedure α (Vec2 α) := readPair v.index .postX .postY

/-- Replace the position before the last integration. -/
def setPrePosition (v : View α) (position : Vec2 α) : Procedure α Unit :=
  writePair v.index .preX .preY position

/-- Replace the position after the last integration. -/
def setPostPosition (v : View α) (position : Vec2 α) : Procedure α Unit :=
  writePair v.index .postX .postY position

/-- The live neighbours of a point. -/
def neighborsOf [Scalar α] (v : View α) (point : Vec2 α) (radius : α) :
    Procedure α (Array UInt32) :=
  sound (v.neighborsOf point radius)

/-- The live neighbours of the particle. -/
def neighbors [Scalar α] (v : View α) (radius : α) : Procedure α (Array UInt32) := do
  let me ← self
  neighborsOf v me.position radius

/-! ### Running -/

/-- Where a call takes place: in which module, and where fields are kept. -/
structure Site where
  /-- the module that is called -/
  owner : String
  /-- where fields are kept -/
  layout : ScratchLayout

/-- The live data within reach of a call, and the notes it has left. -/
structure Reach (α : Type) where
  /-- the particle -/
  particle : Particle α
  /-- the scratch table -/
  table : Table α
  /-- the notes, the latest last -/
  notes : Array (Note α) := #[]

namespace Site

/-- The fault of asking for a field that nobody declared. -/
def noField (owner name : String) : String :=
  "no state field `" ++ name ++ "` on `" ++ owner ++ "`"

/-- The fault of asking for a row that is not there. -/
def noRow (row : UInt32) : String := "state index " ++ toString row.toNat ++ " out of range"

/-- The slot of a field, or the fault of asking for it. -/
def slotOf (site : Site) (owner name : String) : Except String Nat :=
  match site.layout.slot? owner name with
  | some slot => .ok slot
  | none => .error (noField owner name)

end Site

/-- The scalar at a place of the table, or the fault of asking for it. -/
def readCell (table : Table α) (row : UInt32) (slot : Nat) : Except String α :=
  match table.get? row.toNat slot with
  | some value => .ok value
  | none => .error (Site.noRow row)

/-- The data with a scalar written into a slot of a row. Where there is no such place the data
stays, and the fault of writing there is the answer. -/
def Reach.put (reach : Reach α) (row : UInt32) (slot : Nat) (value : α) :
    Except String Unit × Reach α :=
  if reach.table.holds row.toNat slot then
    (.ok (), { reach with table := reach.table.set row.toNat slot value })
  else (.error (Site.noRow row), reach)

/-- How a crash is reported. -/
def crashMessage : Option String → String
  | some text => "panic: " ++ text
  | none => "panic"

/-- Perform a procedure on live data. The result is an error when it ended with a fault or a crash;
either way the data is as the procedure left it. -/
def run (site : Site) : Procedure α β → Reach α → Except String β × Reach α
  | done result, reach => (.ok result, reach)
  | fault message, reach => (.error message, reach)
  | crash text, reach => (.error (crashMessage text), reach)
  | read next, reach => run site (next reach.particle) reach
  | write particle next, reach => run site next { reach with particle := particle }
  | readField owner name row next, reach =>
    let answer := do readCell reach.table row (← site.slotOf (owner.getD site.owner) name)
    run site (next answer) reach
  | writeField name row value next, reach =>
    match site.slotOf site.owner name with
    | .ok slot =>
      let (answer, reach) := reach.put row slot value
      run site (next answer) reach
    | .error message => run site (next (.error message)) reach
  | readReserved row slot next, reach =>
    run site (next (readCell reach.table row slot.slot)) reach
  | writeReserved row slot value next, reach =>
    let (answer, reach) := reach.put row slot.slot value
    run site (next answer) reach
  | note n next, reach => run site next { reach with notes := reach.notes.push n }

@[simp] theorem run_done (site : Site) (result : β) (reach : Reach α) :
    run site (done result) reach = (.ok result, reach) := rfl

@[simp] theorem run_fault (site : Site) (message : String) (reach : Reach α) :
    run site (fault message : Procedure α β) reach = (.error message, reach) := rfl

@[simp] theorem run_read (site : Site) (next : Particle α → Procedure α β) (reach : Reach α) :
    run site (read next) reach = run site (next reach.particle) reach := rfl

@[simp] theorem run_write (site : Site) (particle : Particle α) (next : Procedure α β)
    (reach : Reach α) :
    run site (write particle next) reach = run site next { reach with particle := particle } :=
  rfl

/-- **Running in sequence.** A sequence runs its second part exactly when the first part ends with
a result, on the data that the first part left. -/
theorem run_bind (site : Site) (p : Procedure α β) (f : β → Procedure α γ) (reach : Reach α) :
    run site (p.bind f) reach =
      match run site p reach with
      | (.ok result, reach') => run site (f result) reach'
      | (.error message, reach') => (.error message, reach') := by
  induction p generalizing reach with
  | done result => rfl
  | fault message => rfl
  | crash text => rfl
  | read next ih => exact ih _ _
  | write particle next ih => exact ih _
  | readField owner name row next ih => exact ih _ _
  | writeField name row value next ih =>
    simp only [bind, run]
    split <;> exact ih _ _
  | readReserved row slot next ih => exact ih _ _
  | writeReserved row slot value next ih => exact ih _ _
  | note n next ih => exact ih _

end Procedure

end ParticleDynamics
