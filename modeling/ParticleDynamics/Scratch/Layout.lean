/-!
# The scratch layout

Modules keep values per particle in a scratch table that they share. The layout says where: the
first four slots of a row belong to the integration, which leaves there the position before and
after its last run, and the fields that modules declare follow in the order of registration and of
declaration. A field is named by its module and its own name; a name that is declared again keeps
its first slot.

The device addresses its scratch memory with the same slots.
-/

namespace ParticleDynamics

/-- The slots that belong to the integration. -/
inductive Reserved where
  /-- the horizontal position before integration -/
  | preX
  /-- the vertical position before integration -/
  | preY
  /-- the horizontal position after integration -/
  | postX
  /-- the vertical position after integration -/
  | postY
deriving DecidableEq, Repr

/-- The slot of a reserved value. -/
def Reserved.slot : Reserved → Nat
  | preX => 0
  | preY => 1
  | postX => 2
  | postY => 3

/-- The number of reserved slots, which is the first slot of a declared field. -/
def reservedSlots : Nat := 4

/-- A field that a module declares. -/
structure ScratchField where
  /-- the name of the module -/
  owner : String
  /-- the name of the field -/
  name : String
deriving DecidableEq, Repr

/-- Where the declared fields are kept: the field at index `i` has slot `reservedSlots + i`. -/
structure ScratchLayout where
  /-- the fields in the order of their slots -/
  fields : List ScratchField := []
deriving DecidableEq, Repr

namespace ScratchLayout

/-- The layout with one more field, unless it has the field already. -/
def declare (layout : ScratchLayout) (field : ScratchField) : ScratchLayout :=
  if field ∈ layout.fields then layout else ⟨layout.fields ++ [field]⟩

/-- The fields of a list of groups, each a module with its field names, in order. -/
def declared (groups : List (String × List String)) : List ScratchField :=
  groups.flatMap fun group => group.2.map fun name => ⟨group.1, name⟩

/-- The layout of a list of groups. -/
def build (groups : List (String × List String)) : ScratchLayout :=
  (declared groups).foldl declare {}

/-- The slot of a field, when it is declared. -/
def slot? (layout : ScratchLayout) (owner name : String) : Option Nat :=
  (layout.fields.findIdx? fun field => field = ⟨owner, name⟩).map (reservedSlots + ·)

/-- The number of scalars in a row. -/
def stride (layout : ScratchLayout) : Nat := reservedSlots + layout.fields.length

/-- The fields together with their slots. -/
def slots (layout : ScratchLayout) : List (ScratchField × Nat) :=
  layout.fields.zipIdx reservedSlots

/-- Declaring a field keeps the layout free of repetitions. -/
theorem nodup_declare {layout : ScratchLayout} (field : ScratchField) (h : layout.fields.Nodup) :
    (layout.declare field).fields.Nodup := by
  unfold declare
  split
  next => exact h
  next hnew =>
    rw [List.nodup_append]
    refine ⟨h, by simp, ?_⟩
    intro a ha b hb
    obtain rfl := List.mem_singleton.1 hb
    exact fun heq => hnew (heq ▸ ha)

/-- No field has two slots. -/
theorem nodup_build (groups : List (String × List String)) : (build groups).fields.Nodup := by
  suffices ∀ (fields : List ScratchField) (layout : ScratchLayout), layout.fields.Nodup →
      (fields.foldl declare layout).fields.Nodup from this _ _ List.nodup_nil
  intro fields
  induction fields with
  | nil => exact fun _ h => h
  | cons field rest ih => exact fun layout h => ih _ (nodup_declare field h)

end ScratchLayout

end ParticleDynamics
