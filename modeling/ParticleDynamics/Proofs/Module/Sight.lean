import ParticleDynamics.Module.Basic
import ParticleDynamics.Proofs.Module.Footprint
import ParticleDynamics.Proofs.Scratch.Alike

/-!
# What a procedure looks at

A procedure that asks for a field of another module may find out where fields are kept, but only by
being told that there is no such field. So if two layouts differ in some fields only, and a procedure
does not look at these (`Procedure.LooksPast`), it does the same with a table of either layout: it
comes to the same end, leaves the same particle and the same notes, and tables that were alike are
still alike (`Procedure.run_alike`).
-/

namespace ParticleDynamics

namespace Procedure

variable {α β : Type}

/-- Running on the given data, a procedure does not read a field of another module that is hidden
from it. -/
def LooksPast (hidden : ScratchField → Prop) (site : Site) : Procedure α β → Reach α → Prop
  | done _, _ => True
  | fault _, _ => True
  | crash _, _ => True
  | read next, reach => (next reach.particle).LooksPast hidden site reach
  | write particle next, reach => next.LooksPast hidden site { reach with particle := particle }
  | readField owner name row next, reach =>
    (∀ other, owner = some other → ¬ hidden ⟨other, name⟩) ∧
      (next (do readCell reach.table row (← site.slotOf (owner.getD site.owner) name))).LooksPast
        hidden site reach
  | writeField name row value next, reach =>
    match site.slotOf site.owner name with
    | .ok slot =>
      (next (reach.put row slot value).1).LooksPast hidden site (reach.put row slot value).2
    | .error message => (next (.error message)).LooksPast hidden site reach
  | readReserved row slot next, reach =>
    (next (readCell reach.table row slot.slot)).LooksPast hidden site reach
  | writeReserved row slot value next, reach =>
    (next (reach.put row slot.slot value).1).LooksPast hidden site
      (reach.put row slot.slot value).2
  | note n next, reach => next.LooksPast hidden site { reach with notes := reach.notes.push n }

/-- Writing a field looks at nothing. -/
theorem looksPast_setFieldOf (hidden : ScratchField → Prop) (site : Site) (name : String)
    (row : UInt32) (value : α) (reach : Reach α) :
    (setFieldOf name row value).LooksPast hidden site reach := by
  have hrequire (answer : Except String Unit) (reach : Reach α) :
      (require answer).LooksPast hidden site reach := by
    cases answer with
    | ok result => trivial
    | error message => trivial
  rw [setFieldOf, LooksPast]
  split
  next slot hslot => exact hrequire _ _
  next message hslot => exact hrequire _ _

/-! ## On tables of two layouts -/

/-- The place of a call where fields are kept in another way. -/
def Site.on (site : Site) (layout' : ScratchLayout) : Site := { site with layout := layout' }

variable {site : Site} {layout' : ScratchLayout} {count : Nat}

/-- A field that both layouts have, or neither of them. -/
def Site.SameField (site : Site) (layout' : ScratchLayout) (field : ScratchField) : Prop :=
  field ∈ layout'.fields ↔ field ∈ site.layout.fields

/-- A field is found in both layouts, or missed in the same way. -/
theorem slotOf_cases {owner name : String} (h : site.SameField layout' ⟨owner, name⟩) :
    (∃ slot slot', site.layout.slotAt? (.field ⟨owner, name⟩) = some slot ∧
        layout'.slotAt? (.field ⟨owner, name⟩) = some slot' ∧
        site.slotOf owner name = .ok slot ∧ (site.on layout').slotOf owner name = .ok slot') ∨
      site.slotOf owner name = .error (Site.noField owner name) ∧
        (site.on layout').slotOf owner name = .error (Site.noField owner name) := by
  by_cases hfield : ⟨owner, name⟩ ∈ site.layout.fields
  · obtain ⟨slot, hslot, -⟩ := ScratchLayout.exists_slot hfield
    obtain ⟨slot', hslot', -⟩ := ScratchLayout.exists_slot (h.2 hfield)
    exact .inl ⟨slot, slot', hslot, hslot', by rw [Site.slotOf, hslot], by
      rw [Site.slotOf, Site.on, hslot']⟩
  · have hnone := ScratchLayout.slot?_eq_none_iff.2 hfield
    have hnone' := ScratchLayout.slot?_eq_none_iff.2 (mt h.1 hfield)
    exact .inr ⟨by rw [Site.slotOf, hnone], by rw [Site.slotOf, Site.on, hnone']⟩

/-- A write to one address has the same answer in both tables, and leaves them alike. -/
theorem put_alike {reach : Reach α} {table' : Table α} {address : Address} {slot slot' : Nat}
    (h : Table.Alike site.layout layout' count reach.table table')
    (hslot : site.layout.slotAt? address = some slot) (hslot' : layout'.slotAt? address = some slot')
    (row : UInt32) (value : α) :
    ∃ table'', (reach.on table').put row slot' value =
        ((reach.put row slot value).1, (reach.put row slot value).2.on table'') ∧
      Table.Alike site.layout layout' count (reach.put row slot value).2.table table'' := by
  refine ⟨table'.set row.toNat slot' value, ?_, ?_⟩
  · rw [put_eq, put_eq, Reach.table_on, answerAt, ← h.holds_eq hslot hslot', answerAt]
    rfl
  · rw [table_put]
    exact h.set hslot hslot' row.toNat value

/-- **A procedure does the same with tables that are alike**, if it looks past the fields in which
their layouts differ. The induction is on the procedure; at each access both layouts have a slot for
the field or neither has, and the values there are the same. -/
theorem run_alike {hidden : ScratchField → Prop}
    (hshared : ∀ field, ¬ hidden field → site.SameField layout' field)
    (hown : ∀ name, site.SameField layout' ⟨site.owner, name⟩) (p : Procedure α β)
    (reach : Reach α) {table' : Table α}
    (h : Table.Alike site.layout layout' count reach.table table')
    (hlooks : p.LooksPast hidden site reach) :
    ∃ table'', p.run (site.on layout') (reach.on table') =
        ((p.run site reach).1, (p.run site reach).2.on table'') ∧
      Table.Alike site.layout layout' count (p.run site reach).2.table table'' := by
  induction p generalizing reach table' with
  | done result => exact ⟨table', rfl, h⟩
  | fault message => exact ⟨table', rfl, h⟩
  | crash text => exact ⟨table', rfl, h⟩
  | read next ih => exact ih _ reach h hlooks
  | write particle next ih => exact ih { reach with particle := particle } h hlooks
  | readField owner name row next ih =>
    have hsame : site.SameField layout' ⟨owner.getD site.owner, name⟩ := by
      cases owner with
      | none => exact hown name
      | some other => exact hshared _ (hlooks.1 other rfl)
    -- the answer is the same, whether there is such a field or not
    have hanswer : (do
          readCell table' row (← (site.on layout').slotOf (owner.getD site.owner) name)) =
        (do readCell reach.table row (← site.slotOf (owner.getD site.owner) name)) := by
      rcases slotOf_cases hsame with ⟨slot, slot', hslot, hslot', hfound, hfound'⟩ | ⟨hno, hno'⟩
      · rw [hfound, hfound']
        change readCell table' row slot' = readCell reach.table row slot
        rw [readCell, ← h.get?_eq hslot hslot', readCell]
      · rw [hno, hno']
        rfl
    obtain ⟨table'', hrun, halike⟩ := ih _ reach h hlooks.2
    refine ⟨table'', ?_, halike⟩
    rw [run, run]
    dsimp only [Reach.on]
    exact (congrArg (fun answer => (next answer).run (site.on layout') (reach.on table'))
      hanswer).trans hrun
  | writeField name row value next ih =>
    rw [LooksPast] at hlooks
    rw [run, run]
    rcases slotOf_cases (hown name) with ⟨slot, slot', hslot, hslot', hfound, hfound'⟩ | ⟨hno, hno'⟩
    · rw [hfound] at hlooks ⊢
      rw [show (site.on layout').owner = site.owner from rfl, hfound']
      obtain ⟨written, hput, halike⟩ := put_alike h hslot hslot' row value
      dsimp only at hlooks ⊢
      rw [hput]
      exact ih _ _ halike hlooks
    · rw [hno] at hlooks ⊢
      rw [show (site.on layout').owner = site.owner from rfl, hno']
      exact ih _ reach h hlooks
  | readReserved row slot next ih =>
    have hanswer : readCell table' row slot.slot = readCell reach.table row slot.slot := by
      rw [readCell, ← h.get?_eq (ScratchLayout.slotAt?_reserved slot)
        (ScratchLayout.slotAt?_reserved slot), readCell]
    rw [LooksPast] at hlooks
    obtain ⟨table'', hrun, halike⟩ := ih _ reach h hlooks
    refine ⟨table'', ?_, halike⟩
    rw [run, run]
    exact (congrArg (fun answer => (next answer).run (site.on layout') (reach.on table'))
      hanswer).trans hrun
  | writeReserved row slot value next ih =>
    rw [LooksPast] at hlooks
    obtain ⟨written, hput, halike⟩ := put_alike h (ScratchLayout.slotAt?_reserved slot)
      (ScratchLayout.slotAt?_reserved slot) row value
    rw [run, run, hput]
    exact ih _ _ halike hlooks
  | note n next ih => exact ih { reach with notes := reach.notes.push n } h hlooks

end Procedure

/-- A module never reads a field of another module that is hidden from it, whatever it is called
with. -/
def Module.LooksPast {α : Type} (m : Module α) (layout : ScratchLayout)
    (hidden : ScratchField → Prop) : Prop :=
  ∀ (phase : Phase) (view : View α) (count : Nat) (reach : Procedure.Reach α),
    reach.table.Fits layout count →
      (m.run phase view).LooksPast hidden ⟨m.name, layout⟩ reach

end ParticleDynamics
