import ParticleDynamics.Block.Layout

/-!
# Bindings

Everything that the generated program sees in memory has a number, its **binding**, and a declared
use. The program takes the first seven bindings itself; those of the modules follow in the order of
registration, for each module its block and then its arrays. `BindingTable.uses` lists them all.
-/

namespace ParticleDynamics

/-- What the program does with the memory under a binding. -/
inductive BindingUse where
  /-- read a record that is the same for all invocations -/
  | uniform
  /-- read an array -/
  | readOnly
  /-- read and write an array -/
  | readWrite
deriving DecidableEq, Repr

/-- How a use is declared in a program. -/
def BindingUse.text : BindingUse → String
  | uniform => "uniform"
  | readOnly => "storage, read"
  | readWrite => "storage, read_write"

/-- The bindings that the program takes itself. -/
inductive FixedBinding where
  /-- the records of the particles -/
  | particles
  /-- the records as they were when the pass began -/
  | previous
  /-- the scratch table -/
  | scratch
  /-- the duration of the step and the number of particles -/
  | step
  /-- the shape of the neighbour index -/
  | grid
  /-- the counters of the neighbour index -/
  | counts
  /-- the slots of the neighbour index -/
  | cells
deriving DecidableEq, Repr

namespace FixedBinding

/-- The bindings in the order of their numbers. -/
def all : List FixedBinding := [particles, previous, scratch, step, grid, counts, cells]

/-- The number of a binding. -/
def number : FixedBinding → Nat
  | particles => 0
  | previous => 1
  | scratch => 2
  | step => 3
  | grid => 4
  | counts => 5
  | cells => 6

/-- What the program does with a binding. -/
def use : FixedBinding → BindingUse
  | particles | scratch | counts | cells => .readWrite
  | previous => .readOnly
  | step | grid => .uniform

/-- The name of a binding in the program. -/
def variableName : FixedBinding → String
  | particles => "particles"
  | previous => "particles_prev"
  | scratch => "sim_state"
  | step => "sim"
  | grid => "grid"
  | counts => "grid_counts"
  | cells => "grid_cells"

/-- The type of a binding in the program. -/
def typeName : FixedBinding → String
  | particles => "array<Particle>"
  | previous => "array<Particle>"
  | scratch => "array<f32>"
  | step => "SimUniforms"
  | grid => "GridConfig"
  | counts => "array<atomic<u32>>"
  | cells => "array<u32>"

end FixedBinding

/-- The bindings of a module with their uses. -/
def Block.uses (b : Block) : List (Nat × BindingUse) :=
  (b.binding, .uniform) :: b.arrays.map fun array => (array.binding, .readOnly)

/-- All bindings of a program with their uses. -/
def BindingTable.uses (t : BindingTable) : List (Nat × BindingUse) :=
  FixedBinding.all.map (fun fixed => (fixed.number, fixed.use)) ++ t.blocks.flatMap Block.uses

/-- The bindings with a use are those of the block and of the arrays. -/
theorem Block.map_fst_uses (b : Block) : b.uses.map Prod.fst = b.bindings := by
  simp [Block.uses, Block.bindings, List.map_map, Function.comp_def]

end ParticleDynamics
