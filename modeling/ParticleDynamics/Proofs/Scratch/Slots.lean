import Mathlib.Data.List.Induction
import ParticleDynamics.Proofs.Scratch.Fields

/-!
# Which slot a declared field has

A layout grows by one field at a time, and the number of fields so far is the next slot. So each
different field that a list of groups declares gets one slot, the slots in use are those behind the
reserved ones without a gap, and they come in the order in which the fields are declared first
(`ScratchLayout.slots_assigned`). A layout knows the slots from the places of the fields; a table
that keeps them next to the fields has the same (`ScratchLayout.foldl_assign`).

What is declared later only adds fields at the end (`ScratchLayout.exists_fields_build_append`), so
a slot is never given to another field. Registering one more module, in particular, leaves the slots
of the others where they are (`Registry.slot?_of_push`).
-/

namespace ParticleDynamics

namespace ScratchLayout

variable {layout grown : ScratchLayout} {owner name : String} {slot : Nat}

/-! ## Layouts that grow -/

/-- Declaring fields adds fields at the end. -/
theorem exists_fields_foldl_declare (layout : ScratchLayout) (fields : List ScratchField) :
    ∃ added, (fields.foldl declare layout).fields = layout.fields ++ added := by
  induction fields generalizing layout with
  | nil => exact ⟨[], (List.append_nil _).symm⟩
  | cons field rest ih =>
    obtain ⟨added, hadded⟩ := ih (layout.declare field)
    by_cases hold : field ∈ layout.fields
    · rw [declare, if_pos hold] at hadded
      exact ⟨added, by rw [List.foldl_cons, declare, if_pos hold, hadded]⟩
    · rw [declare, if_neg hold] at hadded
      exact ⟨field :: added, by
        rw [List.foldl_cons, declare, if_neg hold, hadded, List.append_assoc,
          List.singleton_append]⟩

/-- **Further groups add fields at the end.** Slots that have been handed out therefore stay what
they are. -/
theorem exists_fields_build_append (groups more : List (String × List String)) :
    ∃ added, (build (groups ++ more)).fields = (build groups).fields ++ added := by
  rw [build, declared, List.flatMap_append, List.foldl_append]
  exact exists_fields_foldl_declare ..

/-- A field keeps its slot when fields are added at the end. -/
theorem slot?_of_append {added : List ScratchField} (h : grown.fields = layout.fields ++ added)
    (hslot : layout.slot? owner name = some slot) : grown.slot? owner name = some slot := by
  obtain ⟨place, hplace, rfl⟩ := Option.map_eq_some_iff.1 hslot
  rw [slot?, h, List.findIdx?_append, hplace]
  rfl

/-! ## Slots and places -/

/-- **Where no field is listed twice, the place of a field is its slot**, counted from the first one
behind the reserved slots. -/
theorem slot?_eq_some_iff (hnodup : layout.fields.Nodup) :
    layout.slot? owner name = some slot ↔
      reservedSlots ≤ slot ∧ layout.fields[slot - reservedSlots]? = some ⟨owner, name⟩ := by
  refine ⟨getElem?_of_slot?, fun ⟨hle, hfield⟩ => ?_⟩
  obtain ⟨found, hfound, -⟩ := exists_slot (List.mem_of_getElem? hfield)
  obtain ⟨hle', hfield'⟩ := getElem?_of_slot? hfound
  have hplace : found - reservedSlots = slot - reservedSlots :=
    (List.getElem?_inj (List.getElem?_eq_some_iff.1 hfield').1 hnodup).1 (hfield'.trans hfield.symm)
  rw [hfound, ← Nat.sub_add_cancel hle', hplace, Nat.sub_add_cancel hle]

/-- A field is listed with its slot. -/
theorem mem_slots_iff (hnodup : layout.fields.Nodup) {field : ScratchField} :
    (field, slot) ∈ layout.slots ↔ layout.slot? field.owner field.name = some slot := by
  rw [slots, List.mem_zipIdx_iff_le_and_getElem?_sub, slot?_eq_some_iff hnodup]

/-! ## The order of slots -/

/-- The fields stand in the order in which they are declared first. By induction on the list from
its end: a field is added behind all others, or nothing is. -/
theorem pairwise_fields_foldl_declare (fields : List ScratchField) :
    (fields.foldl declare {}).fields.Pairwise fun field other =>
      fields.idxOf field < fields.idxOf other := by
  induction fields using List.reverseRecOn with
  | nil => exact .nil
  | append_singleton fields last ih =>
    have hmem {field : ScratchField} :
        field ∈ (fields.foldl declare {}).fields ↔ field ∈ fields := by
      rw [mem_fields_foldl_declare_iff]
      exact or_iff_right List.not_mem_nil
    -- what is declared last does not move a first declaration
    have hold : (fields.foldl declare {}).fields.Pairwise fun field other =>
        (fields ++ [last]).idxOf field < (fields ++ [last]).idxOf other := by
      refine ih.imp_of_mem fun hfield hother hlt => ?_
      rwa [List.idxOf_append_of_mem (hmem.1 hfield), List.idxOf_append_of_mem (hmem.1 hother)]
    rw [List.foldl_append, List.foldl_cons, List.foldl_nil, declare]
    split
    next => exact hold
    next hnew =>
      refine List.pairwise_append.2 ⟨hold, List.pairwise_singleton _ _, ?_⟩
      intro field hfield other hother
      obtain rfl := List.mem_singleton.1 hother
      rw [List.idxOf_append_of_mem (hmem.1 hfield),
        List.idxOf_append_of_notMem fun hlast => hnew (hmem.2 hlast)]
      exact Nat.lt_of_lt_of_le (List.idxOf_lt_length_of_mem (hmem.1 hfield)) (Nat.le_add_right _ _)

/-- A field with a smaller slot is declared before. -/
theorem idxOf_lt_of_slot_lt {groups : List (String × List String)} {owner' name' : String}
    {slot' : Nat} (h : (build groups).slot? owner name = some slot)
    (h' : (build groups).slot? owner' name' = some slot') (hlt : slot < slot') :
    (declared groups).idxOf ⟨owner, name⟩ < (declared groups).idxOf ⟨owner', name'⟩ := by
  obtain ⟨hle, hfield⟩ := getElem?_of_slot? h
  obtain ⟨-, hfield'⟩ := getElem?_of_slot? h'
  obtain ⟨hplace, hget⟩ := List.getElem?_eq_some_iff.1 hfield
  obtain ⟨hplace', hget'⟩ := List.getElem?_eq_some_iff.1 hfield'
  have hfirst : (declared groups).idxOf (build groups).fields[slot - reservedSlots] <
      (declared groups).idxOf (build groups).fields[slot' - reservedSlots] :=
    List.pairwise_iff_getElem.1 (pairwise_fields_foldl_declare (declared groups)) _ _ hplace hplace'
      (by omega)
  rwa [hget, hget'] at hfirst

/-! ## A table that keeps the slots -/

/-- A field is looked up in the listing under its slot. -/
theorem lookup_slots (layout : ScratchLayout) (field : ScratchField) :
    layout.slots.lookup field = layout.slot? field.owner field.name := by
  obtain ⟨fields⟩ := layout
  simp only [slots, slot?]
  generalize reservedSlots = start
  induction fields generalizing start with
  | nil => rfl
  | cons first rest ih =>
    rw [List.zipIdx_cons, List.lookup_cons, List.findIdx?_cons]
    by_cases hfirst : first = field
    · simp [hfirst]
    · have hne : (field == first) = false := beq_false_of_ne (Ne.symm hfirst)
      rw [hne, ih (start + 1), if_neg (by simpa using hfirst), Option.map_map]
      exact congrArg (Option.map · _) (funext fun place => by rw [Function.comp_apply]; omega)

/-- A table of fields with their slots gets one more field: unless it is found there, its slot comes
behind those that are taken. -/
def assign (table : List (ScratchField × Nat)) (field : ScratchField) : List (ScratchField × Nat) :=
  if (table.lookup field).isSome then table else table ++ [(field, reservedSlots + table.length)]

/-- What a table keeps is the place of each field. -/
theorem assign_slots (layout : ScratchLayout) (field : ScratchField) :
    assign layout.slots field = (layout.declare field).slots := by
  rw [assign, lookup_slots, declare]
  by_cases hold : field ∈ layout.fields
  · obtain ⟨slot, hslot, -⟩ := exists_slot hold
    rw [if_pos hold, hslot, Option.isSome_some, if_pos rfl]
  · rw [if_neg hold, slot?_eq_none_iff.2 hold, Option.isSome_none, if_neg Bool.noConfusion, slots,
      slots, List.zipIdx_append, List.length_zipIdx]
    rfl

/-- **The slots that a table keeps are the places of the fields**, group by group. -/
theorem foldl_assign (layout : ScratchLayout) (groups : List (String × List String)) :
    groups.foldl (fun table group =>
      group.2.foldl (fun table name => assign table ⟨group.1, name⟩) table) layout.slots =
        ((declared groups).foldl declare layout).slots := by
  have hgroup (layout : ScratchLayout) (owner : String) (names : List String) :
      names.foldl (fun table name => assign table ⟨owner, name⟩) layout.slots =
        ((names.map (ScratchField.mk owner)).foldl declare layout).slots := by
    induction names generalizing layout with
    | nil => rfl
    | cons name rest ih => rw [List.foldl_cons, assign_slots, ih, List.map_cons, List.foldl_cons]
  induction groups generalizing layout with
  | nil => rfl
  | cons group rest ih =>
    rw [List.foldl_cons, hgroup, ih, declared, declared, List.flatMap_cons, List.foldl_append]

/-! ## All slots -/

/-- **How the fields of a list of groups get their slots.** -/
structure Assigned (groups : List (String × List String)) (layout : ScratchLayout) : Prop where
  /-- a field has a slot exactly if some group of its module declares it -/
  isSome_slot?_iff : ∀ owner name, (layout.slot? owner name).isSome = true ↔
    ∃ names, (owner, names) ∈ groups ∧ name ∈ names
  /-- different fields have different slots -/
  slot?_inj : ∀ {owner name owner' name' slot}, layout.slot? owner name = some slot →
    layout.slot? owner' name' = some slot → owner = owner' ∧ name = name'
  /-- the slots in use are those behind the reserved ones, up to the end of the row -/
  exists_slot?_eq_iff : ∀ slot, (∃ owner name, layout.slot? owner name = some slot) ↔
    reservedSlots ≤ slot ∧ slot < layout.stride
  /-- they are in the order in which the fields are declared first -/
  slot_lt_iff : ∀ {owner name owner' name' slot slot'}, layout.slot? owner name = some slot →
    layout.slot? owner' name' = some slot' →
    (slot < slot' ↔ (declared groups).idxOf ⟨owner, name⟩ < (declared groups).idxOf ⟨owner', name'⟩)
  /-- the listing has each field with its slot -/
  mem_slots_iff : ∀ field slot,
    (field, slot) ∈ layout.slots ↔ layout.slot? field.owner field.name = some slot
  /-- it is in the order of slots, each of them once -/
  map_snd_slots : layout.slots.map Prod.snd =
    List.range' reservedSlots (layout.stride - reservedSlots)
  /-- it is the table of the fields, filled one by one, in which each field is found -/
  slots_eq : layout.slots = groups.foldl (fun table group =>
      group.2.foldl (fun table name => assign table ⟨group.1, name⟩) table) [] ∧
    ∀ field, layout.slots.lookup field = layout.slot? field.owner field.name
  /-- further groups leave the slots of all fields as they are -/
  slot?_append : ∀ (more : List (String × List String)) {owner name slot},
    layout.slot? owner name = some slot → (build (groups ++ more)).slot? owner name = some slot

/-- **Each different field gets one slot**, in the order of first declarations and without a gap,
whatever the groups are and however often they repeat a module or a field. -/
theorem slots_assigned (groups : List (String × List String)) : Assigned groups (build groups) where
  isSome_slot?_iff owner name := by
    rw [Option.isSome_iff_ne_none, ne_eq, slot?_eq_none_iff, not_not, mem_fields_build_iff,
      declared, List.mem_flatMap]
    simp only [List.mem_map, ScratchField.mk.injEq, Prod.exists]
    constructor
    · rintro ⟨_, names, hgroup, _, hname, rfl, rfl⟩
      exact ⟨names, hgroup, hname⟩
    · rintro ⟨names, hgroup, hname⟩
      exact ⟨owner, names, hgroup, name, hname, rfl, rfl⟩
  slot?_inj h h' := by
    have hfield := (getElem?_of_slot? h).2.symm.trans (getElem?_of_slot? h').2
    simpa using hfield
  exists_slot?_eq_iff slot := by
    simp only [slot?_eq_some_iff (nodup_build groups), stride]
    constructor
    · rintro ⟨owner, name, hle, hfield⟩
      have hlt := (List.getElem?_eq_some_iff.1 hfield).1
      omega
    · rintro ⟨hle, hlt⟩
      have hlt' : slot - reservedSlots < (build groups).fields.length := by omega
      exact ⟨_, _, hle, List.getElem?_eq_getElem hlt'⟩
  -- slots are given away in the order of first appearances, so the two orders decide each other
  slot_lt_iff {_ _ _ _ slot slot'} h h' := by
    refine ⟨idxOf_lt_of_slot_lt h h', fun hidx => ?_⟩
    rcases Nat.lt_trichotomy slot slot' with hbefore | rfl | hafter
    · exact hbefore
    · have hsame := (getElem?_of_slot? h).2.symm.trans (getElem?_of_slot? h').2
      rw [Option.some.inj hsame] at hidx
      exact absurd hidx (Nat.lt_irrefl _)
    · exact absurd (idxOf_lt_of_slot_lt h' h hafter) (Nat.lt_asymm hidx)
  mem_slots_iff _ _ := mem_slots_iff (nodup_build groups)
  map_snd_slots := by rw [slots, List.zipIdx_map_snd, stride, Nat.add_sub_cancel_left]
  slots_eq := ⟨(foldl_assign {} groups).symm, lookup_slots _⟩
  slot?_append more _ _ _ h := by
    obtain ⟨added, hadded⟩ := exists_fields_build_append groups more
    exact slot?_of_append hadded h

/-- A field that two groups of a module declare has the slot of its first declaration. -/
example : (build [("fluid", ["density", "density"]), ("joints", ["pull"]),
    ("fluid", ["pull", "density"])]).slots.map
      (fun entry => (entry.1.owner, entry.1.name, entry.2)) =
    [("fluid", "density", 4), ("joints", "pull", 5), ("fluid", "pull", 6)] := by
  decide +kernel

end ScratchLayout

namespace Registry

variable {α : Type} {r grown : Registry α} {owner name : String} {slot : Nat}

/-- **One more module leaves the slots of the others where they are.** -/
theorem slot?_of_push {entry : Entry α} (hgrown : grown.entries = r.entries.push entry)
    (h : r.scratch.slot? owner name = some slot) : grown.scratch.slot? owner name = some slot := by
  obtain ⟨added, hadded⟩ := ScratchLayout.exists_fields_build_append
    (r.modules.map Module.scratch) [entry.module.scratch]
  rw [scratch, modules_of_push hgrown, List.map_append]
  exact ScratchLayout.slot?_of_append hadded h

end Registry

end ParticleDynamics
