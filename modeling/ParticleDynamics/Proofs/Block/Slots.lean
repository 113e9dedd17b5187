import Mathlib
import ParticleDynamics.Block.Layout

/-!
# What stands where in a block

The flag, the scalars and the array lengths of a module fill the first slots of its block one after
the other, and its bindings follow one another (`Block.Orderly`). So no two of them share a place,
and each word of `Block.serialize` is what one of them stands for:

* the flag as one or zero (`Block.flag_word`),
* the values of the scalars (`Block.scalar_word`),
* the numbers of elements of the arrays (`Block.length_word`).

Limiting the lengths touches only the words of the lengths (`Block.getElem?_clampLengths`).
-/

namespace ParticleDynamics

/-! ## Changes at several places -/

section Places

variable {α β : Type} (place : β → Nat) (change : β → α → α)

/-- Changes at other places leave a place alone. -/
theorem getElem?_foldl_modify_of_ne {items : List β} {index : Nat} (words : Array α)
    (h : ∀ item ∈ items, place item ≠ index) :
    (items.foldl (fun words item => words.modify (place item) (change item)) words)[index]? =
      words[index]? := by
  induction items generalizing words with
  | nil => rfl
  | cons first rest ih =>
    rw [List.foldl_cons, ih _ fun item hitem => h item (List.mem_cons_of_mem _ hitem),
      Array.getElem?_modify, if_neg (h first List.mem_cons_self)]

/-- A place that is changed once has been changed once. -/
theorem getElem?_foldl_modify {items : List β} (words : Array α)
    (hnodup : (items.map place).Nodup) {item : β} (hitem : item ∈ items) :
    (items.foldl (fun words item => words.modify (place item) (change item)) words)[place item]? =
      words[place item]?.map (change item) := by
  induction items generalizing words with
  | nil => cases hitem
  | cons first rest ih =>
    obtain ⟨hfirst, hrest⟩ := List.nodup_cons.1 hnodup
    rw [List.foldl_cons]
    rcases List.mem_cons.1 hitem with rfl | hlater
    · have hothers : ∀ other ∈ rest, place other ≠ place item := fun other hother heq =>
        hfirst (List.mem_map.2 ⟨other, hother, heq⟩)
      rw [getElem?_foldl_modify_of_ne place change _ hothers, Array.getElem?_modify, if_pos rfl]
    · have hne : place first ≠ place item := fun heq =>
        hfirst (List.mem_map.2 ⟨item, hlater, heq.symm⟩)
      rw [ih _ hrest hlater, Array.getElem?_modify, if_neg hne]

/-- Changes keep the number of words. -/
theorem size_foldl_modify (items : List β) (words : Array α) :
    (items.foldl (fun words item => words.modify (place item) (change item)) words).size =
      words.size := by
  induction items generalizing words with
  | nil => rfl
  | cons first rest ih => rw [List.foldl_cons, ih, Array.size_modify]

end Places

namespace Block

/-! ## The slots of a block -/

/-- The slots of a block: of the flag, of the scalars, and of the lengths of the arrays. -/
def slots (b : Block) : List BlockSlot :=
  enabledSlot :: (b.scalars.map ScalarEntry.slot ++ b.arrays.map ArrayEntry.lengthSlot)

/-- The number of slots that are in use. -/
def slotCount (b : Block) : Nat := 1 + b.scalars.length + b.arrays.length

/-- **A block without gaps and overlaps.** -/
structure Orderly (b : Block) : Prop where
  /-- the slots follow one another -/
  linear_slots : b.slots.map BlockSlot.linear = List.range b.slotCount
  /-- every slot is a component of a register -/
  component_lt : ∀ slot ∈ b.slots, slot.component < registerWidth
  /-- the registers suffice -/
  slotCount_le : b.slotCount ≤ b.words
  /-- a scalar parameter has one entry -/
  nodup_scalars : (b.scalars.map ScalarEntry.param).Nodup
  /-- an array parameter has one entry -/
  nodup_arrays : (b.arrays.map ArrayEntry.param).Nodup
  /-- the bindings follow one another -/
  bindings_eq : b.bindings = List.range' b.binding (b.arrays.length + 1)

section Pack

variable {α : Type} (kind : ParamKind) (decls : List (ParamDecl α))

/-- Consecutive numbers along a list. -/
theorem map_add_zipIdx {β : Type} (items : List β) (start : Nat) :
    items.zipIdx.map (fun entry => start + entry.2) = List.range' start items.length := by
  calc items.zipIdx.map (fun entry => start + entry.2)
      = (items.zipIdx.map Prod.snd).map (start + ·) := by rw [List.map_map]; rfl
    _ = List.range' start items.length := by
      rw [List.zipIdx_map_snd, List.map_add_range', Nat.add_zero]

/-- The declarations of one kind stand in the order in which they are declared. -/
theorem nodup_ofKind : ((ofKind kind decls).map Prod.snd).Nodup := by
  have hsub : ((ofKind kind decls).map Prod.snd).Sublist (decls.zipIdx.map Prod.snd) :=
    List.filter_sublist.map _
  rw [List.zipIdx_map_snd] at hsub
  exact List.Nodup.sublist hsub List.nodup_range'

/-- A declaration is found with its kind. -/
theorem mem_ofKind_iff {decl : ParamDecl α} {index : Nat} :
    (decl, index) ∈ ofKind kind decls ↔ decls[index]? = some decl ∧ decl.kind = kind := by
  simp [ofKind, List.mem_filter, List.mem_zipIdx_iff_getElem?]

theorem length_packScalars : (packScalars decls).length = (ofKind .scalar decls).length := by
  simp [packScalars]

theorem map_linear_packScalars :
    (packScalars decls).map (fun entry => entry.slot.linear) =
      List.range' 1 (packScalars decls).length := by
  rw [length_packScalars, ← List.zipIdx_map_snd, packScalars, List.map_map]
  exact List.map_congr_left fun entry _ => BlockSlot.linear_ofLinear _

theorem map_param_packScalars :
    (packScalars decls).map ScalarEntry.param = (ofKind .scalar decls).map Prod.snd := by
  rw [packScalars, List.map_map, ← List.zipIdx_map_fst 1 (ofKind .scalar decls), List.map_map]
  simp [Function.comp_def]

variable (binding slot : Nat)

theorem length_packArrays :
    (packArrays decls binding slot).length = (ofKind .array decls).length := by
  simp [packArrays]

theorem map_linear_packArrays :
    (packArrays decls binding slot).map (fun entry => entry.lengthSlot.linear) =
      List.range' slot (packArrays decls binding slot).length := by
  rw [length_packArrays, ← map_add_zipIdx, packArrays, List.map_map]
  exact List.map_congr_left fun entry _ => BlockSlot.linear_ofLinear _

theorem map_binding_packArrays :
    (packArrays decls binding slot).map ArrayEntry.binding =
      List.range' binding (packArrays decls binding slot).length := by
  rw [length_packArrays, ← map_add_zipIdx, packArrays, List.map_map]
  rfl

theorem map_param_packArrays :
    (packArrays decls binding slot).map ArrayEntry.param = (ofKind .array decls).map Prod.snd := by
  rw [packArrays, List.map_map, ← List.zipIdx_map_fst 0 (ofKind .array decls), List.map_map]
  simp [Function.comp_def]

/-- **A module is laid out without gaps and overlaps.** The flag comes first, then the scalars and
then the lengths of the arrays, so that the number of a word is its place in this order. -/
theorem orderly_pack (owner : String) : (pack owner decls binding).Orderly where
  linear_slots := by
    have hscalars := map_linear_packScalars decls
    have harrays := map_linear_packArrays decls (binding + 1) (1 + (packScalars decls).length)
    simp only [slots, slotCount, pack, List.map_cons, List.map_append, List.map_map,
      Function.comp_def, hscalars, harrays]
    rw [List.range'_append_1, List.range_eq_range', Nat.add_assoc 1, Nat.add_comm 1 (_ + _),
      List.range'_succ]
    rfl
  component_lt := by
    simp only [slots, pack, packScalars, packArrays, List.map_map]
    intro slot hslot
    rcases List.mem_cons.1 hslot with rfl | hslot
    · exact Nat.zero_lt_succ 3
    · rcases List.mem_append.1 hslot with hslot | hslot <;>
        obtain ⟨entry, -, rfl⟩ := List.mem_map.1 hslot <;>
        exact Nat.mod_lt _ (Nat.zero_lt_succ 3)
  slotCount_le := by
    simp only [slotCount, words, pack, registerWidth]
    omega
  nodup_scalars := by
    rw [pack, map_param_packScalars]
    exact nodup_ofKind _ _
  nodup_arrays := by
    rw [pack, map_param_packArrays]
    exact nodup_ofKind _ _
  bindings_eq := by
    simp only [bindings, pack, map_binding_packArrays]
    rw [List.range'_succ]

/-- Every scalar parameter has an entry. -/
theorem exists_scalar (owner : String) {decls} {decl : ParamDecl α} {index : Nat}
    (hdecl : decls[index]? = some decl) (hkind : decl.kind = .scalar) :
    ∃ entry ∈ (pack owner decls binding).scalars, entry.param = index := by
  have hmem : index ∈ (pack owner decls binding).scalars.map ScalarEntry.param := by
    rw [pack, map_param_packScalars]
    exact List.mem_map.2 ⟨_, (mem_ofKind_iff ..).2 ⟨hdecl, hkind⟩, rfl⟩
  obtain ⟨entry, hentry, rfl⟩ := List.mem_map.1 hmem
  exact ⟨entry, hentry, rfl⟩

/-- Every array parameter has an entry. -/
theorem exists_array (owner : String) {decls} {decl : ParamDecl α} {index : Nat}
    (hdecl : decls[index]? = some decl) (hkind : decl.kind = .array) :
    ∃ entry ∈ (pack owner decls binding).arrays, entry.param = index := by
  have hmem : index ∈ (pack owner decls binding).arrays.map ArrayEntry.param := by
    rw [pack, map_param_packArrays]
    exact List.mem_map.2 ⟨_, (mem_ofKind_iff ..).2 ⟨hdecl, hkind⟩, rfl⟩
  obtain ⟨entry, hentry, rfl⟩ := List.mem_map.1 hmem
  exact ⟨entry, hentry, rfl⟩

end Pack

/-! ## Words -/

section Orderly

variable {b : Block}

/-- The first entry with a key is the only one. -/
theorem find?_eq_of_nodup {β : Type} {key : β → Nat} {items : List β}
    (hnodup : (items.map key).Nodup) {item : β} (hitem : item ∈ items) :
    items.find? (fun other => key other = key item) = some item := by
  have hsome : (items.find? fun other => key other = key item).isSome :=
    List.find?_isSome.2 ⟨item, hitem, by simp⟩
  obtain ⟨found, hfound⟩ := Option.isSome_iff_exists.1 hsome
  have hsame : key found = key item := by simpa using List.find?_some hfound
  rw [hfound, List.inj_on_of_nodup_map hnodup (List.mem_of_find?_eq_some hfound) hitem hsame]

theorem Orderly.array?_eq (h : b.Orderly) {entry : ArrayEntry} (hentry : entry ∈ b.arrays) :
    b.array? entry.param = some entry :=
  find?_eq_of_nodup h.nodup_arrays hentry

/-- No two slots are the same. -/
theorem Orderly.nodup_slots (h : b.Orderly) : (b.slots.map BlockSlot.linear).Nodup := by
  rw [h.linear_slots]
  exact List.nodup_range

/-- The slots of the scalars and of the lengths: none is the flag's, and no two are the same. -/
theorem Orderly.apart (h : b.Orderly) :
    (∀ entry ∈ b.scalars, entry.slot.linear ≠ enabledSlot.linear) ∧
    (∀ entry ∈ b.arrays, entry.lengthSlot.linear ≠ enabledSlot.linear) ∧
    (b.scalars.map fun entry => entry.slot.linear).Nodup ∧
    (b.arrays.map fun entry => entry.lengthSlot.linear).Nodup ∧
    ∀ entry ∈ b.scalars, ∀ array ∈ b.arrays, array.lengthSlot.linear ≠ entry.slot.linear := by
  have hnodup := h.nodup_slots
  simp only [slots, List.map_cons, List.map_append, List.map_map, Function.comp_def,
    List.nodup_cons, List.nodup_append, List.mem_append, List.mem_map, not_or, not_exists,
    not_and] at hnodup
  obtain ⟨⟨hflag, hflag'⟩, hscalars, harrays, happart⟩ := hnodup
  exact ⟨hflag, hflag', hscalars, harrays, fun entry hentry array harray heq =>
    happart _ ⟨entry, hentry, rfl⟩ _ ⟨array, harray, rfl⟩ heq.symm⟩

/-- A slot in use is a word of the block. -/
theorem Orderly.linear_lt (h : b.Orderly) {slot : BlockSlot} (hslot : slot ∈ b.slots) :
    slot.linear < b.words := by
  have hmem := List.mem_map_of_mem (f := BlockSlot.linear) hslot
  rw [h.linear_slots, List.mem_range] at hmem
  exact Nat.lt_of_lt_of_le hmem h.slotCount_le

theorem lengthSlot_mem {entry : ArrayEntry} (hentry : entry ∈ b.arrays) :
    entry.lengthSlot ∈ b.slots :=
  List.mem_cons_of_mem _ (List.mem_append_right _ (List.mem_map_of_mem hentry))

variable {α : Type} [Scalar α]

/-- A block has all its words. -/
@[simp] theorem size_serialize (b : Block) (bag : ParamBag α) :
    (b.serialize bag).size = b.words := by
  rw [serialize, size_foldl_modify fun entry : ArrayEntry => entry.lengthSlot.linear,
    size_foldl_modify fun entry : ScalarEntry => entry.slot.linear, Array.size_modify,
    Array.size_replicate]

/-- **The word of a length is the number of elements.** -/
theorem Orderly.length_word (h : b.Orderly) (bag : ParamBag α) {entry : ArrayEntry}
    (hentry : entry ∈ b.arrays) :
    (b.serialize bag)[entry.lengthSlot.linear]? =
      some (Scalar.ofCount (bag.arrayAt entry.param).size) := by
  obtain ⟨-, -, -, hnodup, -⟩ := h.apart
  have hlt : entry.lengthSlot.linear < b.words := h.linear_lt (lengthSlot_mem hentry)
  have hsize (words : Array α) (items : List ScalarEntry) :=
    size_foldl_modify (fun entry : ScalarEntry => entry.slot.linear)
      (fun entry _ => bag.scalarAt entry.param) items words
  rw [serialize, getElem?_foldl_modify (fun entry : ArrayEntry => entry.lengthSlot.linear) _ _
    hnodup hentry, Array.getElem?_eq_getElem (by simpa [hsize] using hlt)]
  rfl

/-! ## Limited lengths -/

/-- What becomes of the word of a length. -/
def limitLength (capacity : Nat → Option Nat) (entry : ArrayEntry) (length : α) : α :=
  match capacity entry.binding with
  | some most => Scalar.minimum length (Scalar.ofCount most)
  | none => length

/-- Limiting changes the words of the lengths. -/
theorem clampLengths_eq (b : Block) (capacity : Nat → Option Nat) (words : Array α) :
    b.clampLengths capacity words =
      b.arrays.foldl (fun words entry =>
        words.modify entry.lengthSlot.linear (limitLength capacity entry)) words := by
  unfold clampLengths
  congr 1
  funext words entry
  cases hcapacity : capacity entry.binding with
  | some most =>
    have hlimit : limitLength capacity entry = fun length : α =>
        Scalar.minimum length (Scalar.ofCount most) :=
      funext fun length => by rw [limitLength, hcapacity]
    rw [hlimit]
  | none =>
    have hlimit : limitLength capacity entry = (id : α → α) :=
      funext fun length => by rw [limitLength, hcapacity, id]
    refine Array.ext_getElem? fun index => ?_
    simp [hlimit, Array.getElem?_modify]

/-- **The word of a length is limited as its binding is.** -/
theorem Orderly.getElem?_clampLengths (h : b.Orderly) (capacity : Nat → Option Nat)
    (words : Array α) {entry : ArrayEntry} (hentry : entry ∈ b.arrays) :
    (b.clampLengths capacity words)[entry.lengthSlot.linear]? =
      words[entry.lengthSlot.linear]?.map (limitLength capacity entry) := by
  obtain ⟨-, -, -, hnodup, -⟩ := h.apart
  rw [clampLengths_eq]
  exact getElem?_foldl_modify (fun entry : ArrayEntry => entry.lengthSlot.linear) _ _ hnodup hentry

/-- All other words stay. -/
theorem getElem?_clampLengths_of_ne (capacity : Nat → Option Nat) (words : Array α) {index : Nat}
    (h : ∀ entry ∈ b.arrays, entry.lengthSlot.linear ≠ index) :
    (b.clampLengths capacity words)[index]? = words[index]? := by
  rw [clampLengths_eq]
  exact getElem?_foldl_modify_of_ne (fun entry : ArrayEntry => entry.lengthSlot.linear) _ _ h

end Orderly

end Block

end ParticleDynamics
