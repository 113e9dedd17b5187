import ParticleDynamics.Proofs.Scratch.Fields

/-!
# The same values in different slots

Where a field is kept depends on all fields that are declared before it. Two tables are **alike**
when each has the rows of its own layout and both have the same values under the addresses that both
layouts know (`Table.Alike`). What is written to one address in both of them, and a change of the
number of rows, leave them alike.
-/

namespace ParticleDynamics

namespace Table

variable {α : Type} {layout layout' : ScratchLayout} {count : Nat} {t t' : Table α}

/-- Tables of two layouts with the same values under the addresses that both layouts have. -/
structure Alike (layout layout' : ScratchLayout) (count : Nat) (t t' : Table α) : Prop where
  fits : t.Fits layout count
  fits' : t'.Fits layout' count
  get?_eq : ∀ {address slot slot'}, layout.slotAt? address = some slot →
    layout'.slotAt? address = some slot' → ∀ row, t.get? row slot = t'.get? row slot'

namespace Alike

variable {address : Address} {slot slot' : Nat}

/-- Both tables have a place for an address, or neither has. -/
theorem holds_eq (h : Alike layout layout' count t t') (hslot : layout.slotAt? address = some slot)
    (hslot' : layout'.slotAt? address = some slot') (row : Nat) :
    t.holds row slot = t'.holds row slot' :=
  Bool.eq_iff_iff.2 ((h.fits.holds_iff hslot row).trans (h.fits'.holds_iff hslot' row).symm)

/-- What both layouts have an address for is read in either table. -/
theorem exists_get? (h : Alike layout layout' count t t') (hslot : layout.slotAt? address = some slot)
    (hslot' : layout'.slotAt? address = some slot') {row : Nat} (hrow : row < count) :
    ∃ value, t.get? row slot = some value ∧ t'.get? row slot' = some value := by
  have heq := h.get?_eq hslot hslot' row
  cases hvalue : t.get? row slot with
  | none =>
    have hholds := (h.fits.holds_iff hslot row).2 hrow
    rw [get?_eq_none_iff.1 hvalue] at hholds
    cases hholds
  | some value => exact ⟨value, rfl, heq.symm.trans hvalue⟩

/-- **A value that is written to one address leaves tables alike.** Where one of the two writes
fails, the other one does as well, since they have as many rows. -/
theorem set (h : Alike layout layout' count t t') (hslot : layout.slotAt? address = some slot)
    (hslot' : layout'.slotAt? address = some slot') (row : Nat) (value : α) :
    Alike layout layout' count (t.set row slot value) (t'.set row slot' value) := by
  by_cases hholds : t.holds row slot = true
  · have hholds' : t'.holds row slot' = true := (h.holds_eq hslot hslot' row).symm.trans hholds
    refine ⟨h.fits.set .., h.fits'.set .., fun {other place place'} hplace hplace' row' => ?_⟩
    by_cases hsame : row = row' ∧ address = other
    · obtain ⟨rfl, rfl⟩ := hsame
      obtain rfl := Option.some.inj (hslot.symm.trans hplace)
      obtain rfl := Option.some.inj (hslot'.symm.trans hplace')
      rw [get?_set_self hholds, get?_set_self hholds']
    · -- another address has another slot in either layout
      have hne : ¬ (row = row' ∧ slot = place) := by
        rintro ⟨rfl, rfl⟩
        exact hsame ⟨rfl, ScratchLayout.slotAt?_inj hslot hplace⟩
      have hne' : ¬ (row = row' ∧ slot' = place') := by
        rintro ⟨rfl, rfl⟩
        exact hsame ⟨rfl, ScratchLayout.slotAt?_inj hslot' hplace'⟩
      rw [get?_set_ne hne, get?_set_ne hne']
      exact h.get?_eq hplace hplace' row'
  · have hholds' : ¬ t'.holds row slot' = true := by rwa [← h.holds_eq hslot hslot' row]
    rw [Table.set, if_neg hholds, Table.set, if_neg hholds']
    exact h

/-- **Tables are still alike with another number of rows.** -/
theorem resize [Zero α] (h : Alike layout layout' count t t') (wanted : Nat) :
    Alike layout layout' wanted (t.resize wanted) (t'.resize wanted) := by
  refine ⟨⟨hasRows_resize h.fits.hasRows.stride_pos wanted, h.fits.stride_eq⟩,
    ⟨hasRows_resize h.fits'.hasRows.stride_pos wanted, h.fits'.stride_eq⟩,
    fun {_ slot slot'} hslot hslot' row => ?_⟩
  have hlt : slot < t.stride := h.fits.stride_eq ▸ ScratchLayout.slotAt?_lt hslot
  have hlt' : slot' < t'.stride := h.fits'.stride_eq ▸ ScratchLayout.slotAt?_lt hslot'
  rw [h.fits.hasRows.get?_resize hlt, h.fits'.hasRows.get?_resize hlt', h.get?_eq hslot hslot']

end Alike

/-- Tables without rows are alike. -/
theorem alike_create (layout layout' : ScratchLayout) :
    Alike layout layout' 0 (create layout.stride : Table α) (create layout'.stride) := by
  have hpos (layout : ScratchLayout) : 0 < layout.stride := Nat.add_pos_left (by decide) _
  refine ⟨⟨hasRows_create (hpos layout), rfl⟩, ⟨hasRows_create (hpos layout'), rfl⟩,
    fun {_ slot slot'} _ _ row => ?_⟩
  have hnone (stride slot : Nat) : (create stride : Table α).get? row slot = none := by
    rw [get?]
    split
    next => exact Array.getElem?_empty
    next => rfl
  rw [hnone, hnone]

end Table

end ParticleDynamics
