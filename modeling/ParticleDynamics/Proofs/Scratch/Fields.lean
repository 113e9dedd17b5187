import Mathlib.Data.List.Basic
import ParticleDynamics.Proofs.Scratch.Rows
import ParticleDynamics.Registry.Basic

/-!
# Where declared fields are

The layout of a list of groups has the fields that the groups declare and no others
(`ScratchLayout.mem_fields_build_iff`), and each field that it has is in a slot of a row
(`ScratchLayout.exists_slot`).

What a row keeps has an **address**: it is a reserved value or a declared field. A slot of a row
belongs to one address at most (`ScratchLayout.slotAt?_inj`). A table **fits** a layout when each of
its rows has the slots of the layout.
-/

namespace ParticleDynamics

namespace ScratchLayout

/-- Declaring a field adds that field alone. -/
theorem mem_fields_declare_iff {layout : ScratchLayout} {field other : ScratchField} :
    other ∈ (layout.declare field).fields ↔ other ∈ layout.fields ∨ other = field := by
  unfold declare
  split
  next hold =>
    refine ⟨.inl, ?_⟩
    rintro (hother | rfl)
    · exact hother
    · exact hold
  next => rw [List.mem_append, List.mem_singleton]

/-- Declaring fields adds those fields. -/
theorem mem_fields_foldl_declare_iff {layout : ScratchLayout} {fields : List ScratchField}
    {other : ScratchField} :
    other ∈ (fields.foldl declare layout).fields ↔ other ∈ layout.fields ∨ other ∈ fields := by
  induction fields generalizing layout with
  | nil => simp
  | cons field rest ih =>
    rw [List.foldl_cons, ih, mem_fields_declare_iff, List.mem_cons, or_assoc]

/-- **A layout has the fields that are declared.** -/
theorem mem_fields_build_iff {groups : List (String × List String)} {field : ScratchField} :
    field ∈ (build groups).fields ↔ field ∈ declared groups := by
  rw [build, mem_fields_foldl_declare_iff]
  exact or_iff_right List.not_mem_nil

/-- **A field of a layout has a slot in the rows.** -/
theorem exists_slot {layout : ScratchLayout} {owner name : String}
    (h : ⟨owner, name⟩ ∈ layout.fields) :
    ∃ slot, layout.slot? owner name = some slot ∧ slot < layout.stride := by
  have hsome : (layout.fields.findIdx? fun field => field = ⟨owner, name⟩).isSome := by
    rw [List.findIdx?_isSome, List.any_eq_true]
    exact ⟨_, h, decide_eq_true rfl⟩
  obtain ⟨place, hplace⟩ := Option.isSome_iff_exists.1 hsome
  have hlt := (List.findIdx?_eq_some_iff_getElem.1 hplace).1
  exact ⟨reservedSlots + place, by rw [slot?, hplace]; rfl, Nat.add_lt_add_left hlt _⟩

/-- A slot that a field has is behind the reserved ones, and tells the field. -/
theorem getElem?_of_slot? {layout : ScratchLayout} {owner name : String} {slot : Nat}
    (h : layout.slot? owner name = some slot) :
    reservedSlots ≤ slot ∧ layout.fields[slot - reservedSlots]? = some ⟨owner, name⟩ := by
  obtain ⟨place, hplace, rfl⟩ := Option.map_eq_some_iff.1 h
  obtain ⟨hlt, hfield, -⟩ := List.findIdx?_eq_some_iff_getElem.1 hplace
  refine ⟨Nat.le_add_right _ _, ?_⟩
  rw [Nat.add_sub_cancel_left, List.getElem?_eq_getElem hlt, of_decide_eq_true hfield]

/-- A field without a slot is not declared. -/
theorem slot?_eq_none_iff {layout : ScratchLayout} {owner name : String} :
    layout.slot? owner name = none ↔ ⟨owner, name⟩ ∉ layout.fields := by
  constructor
  · intro hnone hmem
    obtain ⟨slot, hslot, -⟩ := exists_slot hmem
    exact Option.some_ne_none slot (hslot.symm.trans hnone)
  · intro hmem
    cases hslot : layout.slot? owner name with
    | none => rfl
    | some slot => exact absurd (List.mem_of_getElem? (getElem?_of_slot? hslot).2) hmem

end ScratchLayout

namespace Registry

variable {α : Type} {r : Registry α}

/-- The scratch fields of a registry are those that its modules declare. -/
theorem mem_fields_scratch_iff {field : ScratchField} :
    field ∈ r.scratch.fields ↔
      ∃ entry ∈ r.entries, field.owner = entry.module.name ∧ field.name ∈ entry.module.fields := by
  rw [scratch, ScratchLayout.mem_fields_build_iff, ScratchLayout.declared, List.mem_flatMap]
  constructor
  · rintro ⟨group, hgroup, hfield⟩
    obtain ⟨m, hm, rfl⟩ := List.mem_map.1 hgroup
    obtain ⟨entry, hentry, rfl⟩ := List.mem_map.1 hm
    obtain ⟨name, hname, rfl⟩ := List.mem_map.1 hfield
    exact ⟨entry, Array.mem_toList_iff.1 hentry, rfl, hname⟩
  · rintro ⟨entry, hentry, howner, hname⟩
    refine ⟨entry.module.scratch, List.mem_map_of_mem (List.mem_map_of_mem
      (Array.mem_toList_iff.2 hentry)), List.mem_map.2 ⟨field.name, hname, ?_⟩⟩
    rw [Module.scratch, ← howner]

end Registry

/-! ## Addresses -/

/-- What a row keeps: a reserved value, or a field that a module declared. -/
inductive Address where
  /-- a reserved value -/
  | reserved (slot : Reserved)
  /-- a field -/
  | field (field : ScratchField)
deriving DecidableEq, Repr

theorem Reserved.slot_lt (reserved : Reserved) : reserved.slot < reservedSlots := by
  cases reserved <;> decide

theorem Reserved.slot_inj {reserved other : Reserved} :
    reserved.slot = other.slot ↔ reserved = other := by
  cases reserved <;> cases other <;> decide

namespace ScratchLayout

variable {layout : ScratchLayout} {address other : Address} {slot : Nat}

/-- The slot of an address, when there is one. -/
def slotAt? (layout : ScratchLayout) : Address → Option Nat
  | .reserved reserved => some reserved.slot
  | .field field => layout.slot? field.owner field.name

theorem slotAt?_reserved (reserved : Reserved) :
    layout.slotAt? (.reserved reserved) = some reserved.slot := rfl

/-- A field with a slot is declared. -/
theorem mem_fields_of_slotAt? {field : ScratchField} (h : layout.slotAt? (.field field) = some slot) :
    field ∈ layout.fields :=
  List.mem_of_getElem? (getElem?_of_slot? h).2

/-- **A slot belongs to one address.** Declaring a field twice gives it no second slot, and reserved
values come before all fields. -/
theorem slotAt?_inj (h : layout.slotAt? address = some slot)
    (h' : layout.slotAt? other = some slot) : address = other := by
  cases address with
  | reserved reserved =>
    obtain rfl := Option.some.inj h
    cases other with
    | reserved other => rw [Reserved.slot_inj.1 (Option.some.inj h')]
    | field field =>
      exact absurd (getElem?_of_slot? h').1 (Nat.not_le_of_lt reserved.slot_lt)
  | field field =>
    obtain ⟨hle, hfield⟩ := getElem?_of_slot? h
    cases other with
    | reserved other =>
      obtain rfl := Option.some.inj h'
      exact absurd hle (Nat.not_le_of_lt other.slot_lt)
    | field other =>
      have hother := (getElem?_of_slot? h').2
      exact congrArg Address.field (Option.some.inj (hfield.symm.trans hother))

/-- The slot of an address is in the rows. -/
theorem slotAt?_lt (h : layout.slotAt? address = some slot) : slot < layout.stride := by
  cases address with
  | reserved reserved =>
    obtain rfl := Option.some.inj h
    exact Nat.lt_of_lt_of_le reserved.slot_lt (Nat.le_add_right _ _)
  | field field =>
    obtain ⟨hle, hfield⟩ := getElem?_of_slot? h
    have hlt := (List.getElem?_eq_some_iff.1 hfield).1
    rw [stride]
    omega

end ScratchLayout

/-! ## Tables of a layout -/

/-- A table of `count` rows with the slots of a layout. -/
structure Table.Fits {α : Type} (t : Table α) (layout : ScratchLayout) (count : Nat) : Prop where
  hasRows : t.HasRows count
  stride_eq : t.stride = layout.stride

namespace Table.Fits

variable {α : Type} {t : Table α} {layout : ScratchLayout} {count : Nat}

theorem set (h : t.Fits layout count) (row slot : Nat) (value : α) :
    (t.set row slot value).Fits layout count :=
  ⟨h.hasRows.set row slot value, (stride_set ..).trans h.stride_eq⟩

/-- A row that is there has a place for every address of the layout. -/
theorem holds_iff (h : t.Fits layout count) {address : Address} {slot : Nat}
    (hslot : layout.slotAt? address = some slot) (row : Nat) :
    t.holds row slot = true ↔ row < count := by
  rw [h.hasRows.holds_iff, h.stride_eq]
  exact and_iff_right (ScratchLayout.slotAt?_lt hslot)

/-- A row that is there has a scalar at every address of the layout. -/
theorem exists_get? (h : t.Fits layout count) {address : Address} {slot : Nat}
    (hslot : layout.slotAt? address = some slot) {row : Nat} (hrow : row < count) :
    ∃ value, t.get? row slot = some value := by
  refine Option.ne_none_iff_exists'.1 fun hnone => ?_
  have hholds := (h.holds_iff hslot row).2 hrow
  rw [get?_eq_none_iff.1 hnone] at hholds
  cases hholds

end Table.Fits

end ParticleDynamics
