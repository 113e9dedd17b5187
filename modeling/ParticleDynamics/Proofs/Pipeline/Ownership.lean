import ParticleDynamics.Proofs.Module.Footprint
import ParticleDynamics.Proofs.Pipeline.Memory
import ParticleDynamics.Proofs.Registry.Actions
import ParticleDynamics.Proofs.Scratch.Fields

/-!
# What a call can touch

A module is called for one particle, and whatever it does there, and however it ends, three things
at most have changed afterwards (`Scene.ChangedOnly`): the record of this particle, the fields that
the module declared, these in every row, and the reserved values in the rows by whose numbers the
module went (`Procedure.reservedRows`). As a module may assign another number to its index, these
rows need not be that of the particle: a module can write the reserved values of any other one
(`Pipeline.intrudes_into_other_row`). As long as it goes by the index that it was called with, it
writes in no other row than its own.

The reason is that a procedure has no other operations (`Procedure.table_induction_owned`), and that
a slot of a row belongs to one address only. An operation on the scratch table that fails has done
nothing at all (`Procedure.TableOperation.of_error`), although a position takes two writes: a row
that has one of the two slots has the other.
-/

namespace ParticleDynamics

namespace Procedure

variable {α β : Type} {site : Site}

/-! ## The cells of a call -/

/-- The rows in which a procedure writes reserved values when it is performed on live data, one for
each write: the numbers that its index has at these moments. -/
def reservedRows (site : Site) : Procedure α β → Reach α → List UInt32
  | done _, _ => []
  | fault _, _ => []
  | crash _, _ => []
  | read next, reach => reservedRows site (next reach.particle) reach
  | write particle next, reach => reservedRows site next { reach with particle := particle }
  | readField owner name row next, reach =>
    let answer := do readCell reach.table row (← site.slotOf (owner.getD site.owner) name)
    reservedRows site (next answer) reach
  | writeField name row value next, reach =>
    match site.slotOf site.owner name with
    | .ok slot =>
      let (answer, reach) := reach.put row slot value
      reservedRows site (next answer) reach
    | .error message => reservedRows site (next (.error message)) reach
  | readReserved row slot next, reach =>
    reservedRows site (next (readCell reach.table row slot.slot)) reach
  | writeReserved row slot value next, reach =>
    let (answer, reach) := reach.put row slot.slot value
    row :: reservedRows site (next answer) reach
  | note n next, reach => reservedRows site next { reach with notes := reach.notes.push n }

/-- What a call may change when it goes by the numbers of some rows: the reserved values of these
rows, and the fields of its module in every row. -/
def Site.MayChange (site : Site) (rows : List UInt32) (row : Nat) : Address → Prop
  | .reserved _ => ∃ number ∈ rows, row = number.toNat
  | .field field => field.owner = site.owner

/-- The cells of all that a call may change. -/
def Site.Owns (site : Site) (rows : List UInt32) (row slot : Nat) : Prop :=
  ∃ address, site.layout.slotAt? address = some slot ∧ site.MayChange rows row address

/-- A slot that was found belongs to the field. -/
theorem slotAt?_of_slotOf {owner name : String} {slot : Nat} (h : site.slotOf owner name = .ok slot) :
    site.layout.slotAt? (.field ⟨owner, name⟩) = some slot := by
  rw [Site.slotOf] at h
  split at h
  next found hfound => exact hfound.trans (congrArg some (Except.ok.inj h))
  next => cases h

/-- **Whatever a call does, it stays in its own cells**: what writing these keeps, the call keeps.
The induction is on the procedure, along the way that it takes with the answers it is given. -/
theorem table_induction_owned {motive : Table α → Prop} {rows : List UInt32}
    (hset : ∀ table row slot value, site.Owns rows row slot → motive table →
      motive (table.set row slot value))
    (p : Procedure α β) {reach : Reach α} (hrows : p.reservedRows site reach ⊆ rows)
    (h : motive reach.table) : motive (p.run site reach).2.table := by
  have hput {reach : Reach α} (h : motive reach.table) {row : UInt32} {slot : Nat} (value : α)
      (howns : site.Owns rows row.toNat slot) : motive (reach.put row slot value).2.table := by
    rw [table_put]
    exact hset _ _ _ _ howns h
  induction p generalizing reach with
  | done result => exact h
  | fault message => exact h
  | crash text => exact h
  | read next ih => exact ih _ hrows h
  | write particle next ih => exact ih hrows h
  | readField owner name row next ih => exact ih _ hrows h
  | writeField name row value next ih =>
    rw [reservedRows] at hrows
    rw [run]
    cases hslot : site.slotOf site.owner name with
    | ok slot =>
      rw [hslot] at hrows
      exact ih _ hrows (hput h value ⟨_, slotAt?_of_slotOf hslot, rfl⟩)
    | error message =>
      rw [hslot] at hrows
      exact ih _ hrows h
  | readReserved row slot next ih => exact ih _ hrows h
  | writeReserved row slot value next ih =>
    -- the row of this write is one of those that the module goes by
    obtain ⟨hrow, hlater⟩ := List.cons_subset.1 hrows
    exact ih _ hlater (hput h value ⟨.reserved slot, rfl, row, hrow, rfl⟩)
  | note n next ih => exact ih hrows h

/-- **Among all cells of the table**, those that a call changes are its own. It speaks of cells
rather than of rows and slots, so that nothing in the table is left out. -/
theorem cells_run (p : Procedure α β) (reach : Reach α) (place : Nat) :
    (p.run site reach).2.table.cells[place]? = reach.table.cells[place]? ∨
      ∃ row slot, place = row * reach.table.stride + slot ∧ slot < reach.table.stride ∧
        site.Owns (p.reservedRows site reach) row slot := by
  by_contra hno
  rw [not_or] at hno
  refine hno.1 ?_
  -- the stride is carried along, because it says which cell a write hits
  refine (p.table_induction_owned
    (motive := fun table => table.stride = reach.table.stride ∧
      table.cells[place]? = reach.table.cells[place]?)
    (fun table row slot value howns ih => ⟨(Table.stride_set ..).trans ih.1, ?_⟩)
    (List.Subset.refl _) ⟨rfl, rfl⟩).2
  rw [Table.set]
  split
  next hholds =>
    have hslot := (of_decide_eq_true hholds).1
    rw [ih.1] at hslot
    rw [Array.getElem?_modify, if_neg, ih.2]
    rintro rfl
    exact hno.2 ⟨row, slot, by rw [ih.1], hslot, howns⟩
  next => exact ih.2

/-- **A value that is not the call's own reads as before.** -/
theorem get?_run_of_not_owns (p : Procedure α β) (reach : Reach α) {row slot : Nat}
    (h : ¬ site.Owns (p.reservedRows site reach) row slot) :
    (p.run site reach).2.table.get? row slot = reach.table.get? row slot := by
  refine p.table_induction_owned
    (motive := fun table => table.get? row slot = reach.table.get? row slot)
    (fun table row' slot' value howns ih => ?_) (List.Subset.refl _) rfl
  rw [Table.get?_set_ne _ value, ih]
  rintro ⟨rfl, rfl⟩
  exact h howns

/-! ## Operations that fail -/

/-- The operations of a call on the scratch table. Those on positions go by the index of a view, which
may be one that the module has assigned. -/
inductive TableOperation : {β : Type} → Procedure α β → Prop where
  /-- read one of the module's own fields -/
  | field (name : String) (row : UInt32) : TableOperation (fieldOf name row)
  /-- read a field of another module -/
  | foreignField (owner name : String) (row : UInt32) : TableOperation (foreignField owner name row)
  /-- write one of the module's own fields -/
  | setField (name : String) (row : UInt32) (value : α) : TableOperation (setFieldOf name row value)
  /-- read the position before the last integration -/
  | prePosition (v : View α) : TableOperation (prePosition v)
  /-- read the position after the last integration -/
  | postPosition (v : View α) : TableOperation (postPosition v)
  /-- write the position before the last integration -/
  | setPrePosition (v : View α) (position : Vec2 α) : TableOperation (setPrePosition v position)
  /-- write the position after the last integration -/
  | setPostPosition (v : View α) (position : Vec2 α) : TableOperation (setPostPosition v position)

/-- Why an operation on a table of `count` rows fails: the field is not declared, or the row is not
there. -/
inductive Refuses (layout : ScratchLayout) (count : Nat) : String → Prop where
  /-- the field is not declared -/
  | field {owner name : String} (h : ⟨owner, name⟩ ∉ layout.fields) :
    Refuses layout count (Site.noField owner name)
  /-- the row is not there -/
  | row {row : UInt32} (h : count ≤ row.toNat) : Refuses layout count (Site.noRow row)

variable {count : Nat} {message : String}

/-- An answer that is passed on is the result. -/
theorem run_require (answer : Except String β) (reach : Reach α) :
    (require answer).run site reach = (answer, reach) := by
  cases answer with
  | ok result => rfl
  | error message => rfl

theorem refuses_of_slotOf {owner name : String} (h : site.slotOf owner name = .error message) :
    Refuses site.layout count message := by
  rw [Site.slotOf] at h
  split at h
  next => cases h
  next hnone =>
    obtain rfl := Except.error.inj h
    exact .field (ScratchLayout.slot?_eq_none_iff.1 hnone)

/-- A cell that the table lacks is in a row that is not there. -/
theorem refuses_of_not_holds {table : Table α} (hfits : table.Fits site.layout count) {row : UInt32}
    {address : Address} {slot : Nat} (hslot : site.layout.slotAt? address = some slot)
    (h : ¬ table.holds row.toNat slot = true) : Refuses site.layout count (Site.noRow row) := by
  exact .row (Nat.le_of_not_lt fun hlt => h ((hfits.holds_iff hslot _).2 hlt))

theorem refuses_of_readCell {table : Table α} (hfits : table.Fits site.layout count) {row : UInt32}
    {address : Address} {slot : Nat} (hslot : site.layout.slotAt? address = some slot)
    (h : readCell table row slot = .error message) : Refuses site.layout count message := by
  rw [readCell] at h
  split at h
  next => cases h
  next hnone =>
    obtain rfl := Except.error.inj h
    refine refuses_of_not_holds hfits hslot ?_
    rw [Table.get?_eq_none_iff.1 hnone]
    exact Bool.false_ne_true

/-- A write that fails has done nothing. -/
theorem put_of_error {reach : Reach α} (hfits : reach.table.Fits site.layout count) {row : UInt32}
    {address : Address} {slot : Nat} (hslot : site.layout.slotAt? address = some slot) {value : α}
    (h : (reach.put row slot value).1 = .error message) :
    (reach.put row slot value).2 = reach ∧ Refuses site.layout count message := by
  rw [Reach.put] at h ⊢
  split at h
  next => cases h
  next hholds =>
    obtain rfl := Except.error.inj h
    exact ⟨by rw [if_neg hholds], refuses_of_not_holds hfits hslot hholds⟩

theorem readField_of_error {owner : Option String} {name : String} {row : UInt32} {reach : Reach α}
    (hfits : reach.table.Fits site.layout count)
    (h : ((readField owner name row require).run site reach).1 = .error message) :
    ((readField owner name row require).run site reach).2 = reach ∧
      Refuses site.layout count message := by
  rw [run, run_require] at h ⊢
  refine ⟨rfl, ?_⟩
  cases hslot : site.slotOf (owner.getD site.owner) name with
  | error message' =>
    rw [hslot] at h
    obtain rfl : message' = message := Except.error.inj h
    exact refuses_of_slotOf hslot
  | ok slot =>
    rw [hslot] at h
    exact refuses_of_readCell hfits (slotAt?_of_slotOf hslot) h

theorem setFieldOf_of_error {name : String} {row : UInt32} {value : α} {reach : Reach α}
    (hfits : reach.table.Fits site.layout count)
    (h : ((setFieldOf name row value).run site reach).1 = .error message) :
    ((setFieldOf name row value).run site reach).2 = reach ∧ Refuses site.layout count message := by
  cases hslot : site.slotOf site.owner name with
  | error message' =>
    have hrun : (setFieldOf name row value).run site reach = (.error message', reach) := by
      rw [setFieldOf, run, hslot]
      rfl
    rw [hrun] at h ⊢
    obtain rfl : message' = message := Except.error.inj h
    exact ⟨rfl, refuses_of_slotOf hslot⟩
  | ok slot =>
    have hrun : (setFieldOf name row value).run site reach = reach.put row slot value := by
      rw [setFieldOf, run, hslot]
      exact run_require _ _
    rw [hrun] at h ⊢
    exact put_of_error hfits (slotAt?_of_slotOf hslot) h

theorem readPair_of_error {row : UInt32} {x y : Reserved} {reach : Reach α}
    (hfits : reach.table.Fits site.layout count)
    (h : ((readPair row x y : Procedure α (Vec2 α)).run site reach).1 = .error message) :
    ((readPair row x y : Procedure α (Vec2 α)).run site reach).2 = reach ∧
      Refuses site.layout count message := by
  have hread (slot : Reserved) :
      (readReserved row slot require).run site reach =
        (readCell reach.table row slot.slot, reach) :=
    run_require _ reach
  rw [readPair, bind_eq, run_bind, hread] at h ⊢
  cases hx : readCell reach.table row x.slot with
  | error message' =>
    -- the first of the two is refused and the second is not read
    rw [hx] at h
    obtain rfl : message' = message := Except.error.inj h
    exact ⟨rfl, refuses_of_readCell hfits (ScratchLayout.slotAt?_reserved x) hx⟩
  | ok first =>
    rw [hx] at h
    dsimp only at h ⊢
    rw [bind_eq, run_bind, hread] at h ⊢
    cases hy : readCell reach.table row y.slot with
    | error message' =>
      rw [hy] at h
      obtain rfl : message' = message := Except.error.inj h
      exact ⟨rfl, refuses_of_readCell hfits (ScratchLayout.slotAt?_reserved y) hy⟩
    | ok second =>
      -- both have been read, so there is no error
      rw [hy] at h
      cases h

/-- **Of the two writes of a position the second cannot fail alone**, because a row that has one
reserved slot has them all. -/
theorem writePair_of_error {row : UInt32} {x y : Reserved} {position : Vec2 α} {reach : Reach α}
    (hfits : reach.table.Fits site.layout count)
    (h : ((writePair row x y position).run site reach).1 = .error message) :
    ((writePair row x y position).run site reach).2 = reach ∧
      Refuses site.layout count message := by
  have hwrite (slot : Reserved) (value : α) (reach : Reach α) :
      (writeReserved row slot value require).run site reach = reach.put row slot.slot value :=
    run_require _ _
  rw [writePair, bind_eq, run_bind, hwrite] at h ⊢
  by_cases hx : reach.table.holds row.toNat x.slot = true
  · -- the first write succeeds, and so does the second one
    have hy : (reach.table.set row.toNat x.slot position.x).holds row.toNat y.slot = true := by
      rw [Table.holds_set, hfits.holds_iff (ScratchLayout.slotAt?_reserved y)]
      exact (hfits.holds_iff (ScratchLayout.slotAt?_reserved x) _).1 hx
    rw [Reach.put, if_pos hx] at h
    dsimp only at h
    rw [hwrite, Reach.put, if_pos hy] at h
    cases h
  · rw [Reach.put, if_neg hx] at h ⊢
    obtain rfl := Except.error.inj h
    exact ⟨rfl, refuses_of_not_holds hfits (ScratchLayout.slotAt?_reserved x) hx⟩

/-- **An operation on the scratch table that fails has changed nothing**, and fails because of a
field that is not declared or a row that is not there. -/
theorem TableOperation.of_error {q : Procedure α β} (hq : TableOperation q) {reach : Reach α}
    (hfits : reach.table.Fits site.layout count)
    (h : (q.run site reach).1 = .error message) :
    (q.run site reach).2 = reach ∧ Refuses site.layout count message := by
  cases hq with
  | field name row => exact readField_of_error hfits h
  | foreignField owner name row => exact readField_of_error hfits h
  | setField name row value => exact setFieldOf_of_error hfits h
  | prePosition v => exact readPair_of_error hfits h
  | postPosition v => exact readPair_of_error hfits h
  | setPrePosition v position => exact writePair_of_error hfits h
  | setPostPosition v position => exact writePair_of_error hfits h

end Procedure

/-! ## What a call has changed -/

namespace Module

variable {α : Type}

/-- What a call of a module may change in a row when it goes by the numbers of some rows: the reserved
values if the row is one of these, and the fields that the module declared. -/
def MayChange (m : Module α) (rows : List UInt32) (row : Nat) : Address → Prop
  | .reserved _ => ∃ number ∈ rows, row = number.toNat
  | .field field => field.owner = m.name ∧ field.name ∈ m.fields

/-- Going by the numbers of more rows, a call may change more. -/
theorem MayChange.mono {m : Module α} {rows rows' : List UInt32} (hrows : rows ⊆ rows') {row : Nat}
    {address : Address} (h : m.MayChange rows row address) : m.MayChange rows' row address := by
  cases address with
  | reserved reserved =>
    obtain ⟨number, hnumber, hrow⟩ := h
    exact ⟨number, hrows hnumber, hrow⟩
  | field field => exact h

end Module

namespace Scene

variable {α : Type}

/-- From one scene to another nothing has changed but what a call of a module for the particle at an
index may change when it goes by the numbers of some rows. -/
structure ChangedOnly (layout : ScratchLayout) (m : Module α) (index : Nat) (rows : List UInt32)
    (before after : Scene α) : Prop where
  /-- the neighbour index is the same -/
  grid_eq : after.grid = before.grid
  /-- no particle has come or gone -/
  size_eq : after.particles.size = before.particles.size
  /-- the other records are as they were -/
  record_eq : ∀ other, other ≠ index → after.particles[other]? = before.particles[other]?
  /-- the table has kept its shape -/
  shape_eq : after.table.stride = before.table.stride ∧
    after.table.cells.size = before.table.cells.size
  /-- each of all cells is as it was, unless it is where the module may change something -/
  cell_eq : ∀ place, after.table.cells[place]? = before.table.cells[place]? ∨
    ∃ row slot address, place = row * before.table.stride + slot ∧ slot < before.table.stride ∧
      layout.slotAt? address = some slot ∧ m.MayChange rows row address
  /-- everything else that rows keep reads as before -/
  value_eq : ∀ row address slot, layout.slotAt? address = some slot →
    ¬ m.MayChange rows row address → after.table.get? row slot = before.table.get? row slot

theorem ChangedOnly.refl {layout : ScratchLayout} {m : Module α} {index : Nat} {rows : List UInt32}
    (scene : Scene α) : ChangedOnly layout m index rows scene scene :=
  ⟨rfl, rfl, fun _ _ => rfl, ⟨rfl, rfl⟩, fun _ => .inl rfl, fun _ _ _ _ _ => rfl⟩

/-- What has changed within some rows has changed within more. -/
theorem ChangedOnly.mono {layout : ScratchLayout} {m : Module α} {index : Nat}
    {rows rows' : List UInt32} (hrows : rows ⊆ rows') {before after : Scene α}
    (h : ChangedOnly layout m index rows before after) :
    ChangedOnly layout m index rows' before after where
  grid_eq := h.grid_eq
  size_eq := h.size_eq
  record_eq := h.record_eq
  shape_eq := h.shape_eq
  cell_eq place := (h.cell_eq place).imp_right
    fun ⟨row, slot, address, hplace, hslot, haddress, hchange⟩ =>
      ⟨row, slot, address, hplace, hslot, haddress, hchange.mono hrows⟩
  value_eq row address slot hslot hno :=
    h.value_eq row address slot hslot fun hchange => hno (hchange.mono hrows)

variable [Scalar α] {r : Registry α} {entry : Entry α}

omit [Scalar α] in
/-- What the call of a registered module may change, in the terms of the module. -/
theorem mayChange_of_site (hnames : r.names.Nodup) (hentry : entry ∈ r.entries) (began : Scene α)
    {phase : Phase} {dt : α} {rows : List UInt32} {row slot : Nat} {address : Address}
    (hslot : r.scratch.slotAt? address = some slot)
    (h : (began.passOf r.scratch phase dt entry).site.MayChange rows row address) :
    entry.module.MayChange rows row address := by
  cases address with
  | reserved reserved => exact h
  | field field =>
    -- another module that declares the field has the same name, and so is this one
    obtain ⟨other, hother, howner, hname⟩ :=
      Registry.mem_fields_scratch_iff.1 (ScratchLayout.mem_fields_of_slotAt? hslot)
    have hsame : field.owner = entry.module.name := h
    obtain rfl := Registry.eq_of_name_eq hnames hother hentry (howner.symm.trans hsame)
    exact ⟨hsame, hname⟩

end Scene

namespace Pass

variable {α : Type} [Scalar α]

/-- The rows in which the call for the particle at an index writes reserved values. -/
def reservedRows (pass : Pass α) (scene : Scene α) (index : Nat) : List UInt32 :=
  match scene.particles[index]? with
  | none => []
  | some p => (pass.module.run pass.phase (pass.view index)).reservedRows pass.site
      { particle := p, table := scene.table }

end Pass

namespace Scene

variable {α : Type} [Scalar α] {r : Registry α} {entry : Entry α}

/-- **A call changes only what its module may change**, going by the rows that it goes by. Names are
different, and so the fields of the module are not those of another one. -/
theorem changedOnly_visit (hnames : r.names.Nodup) (hentry : entry ∈ r.entries) (began : Scene α)
    (phase : Phase) (dt : α) (failed : Bool) (scene : Scene α) (index : UInt32) :
    let pass := began.passOf r.scratch phase dt entry
    scene.ChangedOnly r.scratch entry.module index.toNat (pass.reservedRows scene index.toNat)
      (pass.visit (failed, scene) index.toNat).2 := by
  intro pass
  rcases pass.visit_cases failed scene index.toNat with ⟨-, hvisit⟩ | ⟨p, journal, hp, -, hvisit, -⟩
  · rw [hvisit]
    exact .refl scene
  · rw [hvisit]
    let procedure := entry.module.run phase (pass.view index.toNat)
    let reach : Procedure.Reach α := ⟨p, scene.table, #[]⟩
    have hrows : pass.reservedRows scene index.toNat = procedure.reservedRows pass.site reach := by
      rw [Pass.reservedRows, hp]
      rfl
    -- no operation changes the shape of the table
    have hshape : (pass.acted scene index.toNat p).table.stride = scene.table.stride ∧
        (pass.acted scene index.toNat p).table.cells.size = scene.table.cells.size :=
      Procedure.table_induction pass.site
        (motive := fun table => table.stride = scene.table.stride ∧
          table.cells.size = scene.table.cells.size)
        (fun _ _ _ _ ih => ⟨(Table.stride_set ..).trans ih.1, (Table.size_set ..).trans ih.2⟩)
        _ ⟨rfl, rfl⟩
    rw [hrows]
    refine ⟨rfl, Array.size_modify, fun other hother => ?_, hshape, fun place => ?_,
      fun row address slot hslot hno => ?_⟩
    · exact (Array.getElem?_modify ..).trans (if_neg hother.symm)
    · -- a cell that is different was written through a row and a slot that the call may use
      rcases procedure.cells_run reach place with hsame |
        ⟨row, slot, hplace, hslot, address, haddress, hchange⟩
      · exact .inl hsame
      · exact .inr ⟨row, slot, address, hplace, hslot, haddress,
          mayChange_of_site hnames hentry began haddress hchange⟩
    · -- and a slot that it may not use reads as before, in every row
      refine procedure.get?_run_of_not_owns reach ?_
      rintro ⟨other, hother, hchange⟩
      obtain rfl := ScratchLayout.slotAt?_inj hslot hother
      exact hno (mayChange_of_site hnames hentry began hslot hchange)

end Scene

namespace Pipeline

variable {α : Type} [Scalar α] {p : Pipeline α} {store : Store α} {r : Registry α} {dt : α}

/-- There is one row for each particle at every moment of a step. -/
theorem Course.tabled_moments (course : Course p store r dt) :
    ∀ moment ∈ course.moments, moment.Tabled r.scratch := by
  have halong := course.along_moments Scene.lasting_tabled
  have htabled := course.tabled_state
  refine List.forall_mem_cons.2 ⟨htabled, List.forall_mem_append.2
    ⟨fun moment hmoment => halong.of_first moment hmoment htabled, ?_⟩⟩
  exact List.forall_mem_singleton.2 course.tabled_last

/-- **What a call can touch.** When a registered module is called for the particle at an index, then
afterwards, however the call has ended, nothing has changed but the record of this particle, the
reserved values in the rows by whose numbers the module went, and the fields that the module
declared. If it went by no other number than the index that it was called with, the reserved values
are those in the row of the particle. An operation on the scratch table that fails, whatever the call
has done before, has changed nothing; it fails because of a field that is not declared or a row that
is not there. This is so at every moment of a step, since the table has one row for each particle
all the way through. -/
theorem calls_confined (hr : r.Reachable) {entry : Entry α} (hentry : entry ∈ r.entries)
    (began : Scene α) (phase : Phase) (dt : α) (failed : Bool) (scene : Scene α) (index : UInt32) :
    let pass := began.passOf r.scratch phase dt entry
    scene.ChangedOnly r.scratch entry.module index.toNat (pass.reservedRows scene index.toNat)
        (pass.visit (failed, scene) index.toNat).2 ∧
      ((∀ row ∈ pass.reservedRows scene index.toNat, row = index) →
        scene.ChangedOnly r.scratch entry.module index.toNat [index]
          (pass.visit (failed, scene) index.toNat).2) ∧
      (scene.Tabled r.scratch → ∀ (particle : Particle α) {β γ : Type} (earlier : Procedure α β)
        {operation : Procedure α γ}, Procedure.TableOperation operation → ∀ message,
          let reach := (earlier.run pass.site { particle := particle, table := scene.table }).2
          (operation.run pass.site reach).1 = .error message →
            (operation.run pass.site reach).2 = reach ∧
              Procedure.Refuses r.scratch scene.particles.size message) ∧
      (∀ (p : Pipeline α) (store : Store α) (course : Course p store r dt),
        ∀ moment ∈ course.moments, moment.Tabled r.scratch) := by
  intro pass
  have hchanged := Scene.changedOnly_visit hr.nodup_names hentry began phase dt failed scene index
  refine ⟨hchanged, fun hrows => hchanged.mono fun row hrow => List.mem_singleton.2 (hrows row hrow),
    fun htabled particle {_ _} earlier {_} hoperation message => ?_,
    fun p store course => course.tabled_moments⟩
  refine hoperation.of_error (earlier.table_induction _
    (motive := fun table => table.Fits r.scratch scene.particles.size)
    (fun _ row slot value ih => ih.set row slot value) htabled)

/-! ## A module that assigns its index -/

/-- A module that always goes by the index of the second particle. -/
def intruder : Module Single where
  name := "intruder"
  role := .force { state := true }
  run := fun _ view => .setPrePosition (view.assignIndex 1) ⟨1, 1⟩
  fragment := fun _ => .done none

/-- This module alone. -/
def intruding : Registry Single := { entries := #[⟨intruder, ⟨true, #[]⟩⟩] }

/-- Called for the second particle, the intruder goes by its own index and stays in its own row. It could
not have written in a third row, because there are two. -/
theorem calls_confined_intruding :
    let scene := still.start couple intruding.scratch still.grid
    let pass := scene.passOf intruding.scratch .state 0 ⟨intruder, ⟨true, #[]⟩⟩
    let after := (pass.visit (false, scene) 1).2
    let reach : Procedure.Reach Single := ⟨Birth.standard.withId 0, scene.table, #[]⟩
    let late := (Procedure.setPostPosition ((pass.view 1).assignIndex 2) ⟨1, 1⟩).run pass.site reach
    scene.table.get? 1 0 = some 0 ∧ after.table.get? 1 0 = some 1 ∧
      scene.ChangedOnly intruding.scratch intruder 1 [1] after ∧
      late.1 = .error (Procedure.Site.noRow 2) ∧ late.2 = reach := by
  intro scene pass after reach late
  have hact : (Registry.empty : Registry Single).act (.register intruder) = .ok ⟨(), intruding, []⟩ := by
    with_unfolding_all rfl
  have hlate : late.1 = .error (Procedure.Site.noRow 2) := by decide +kernel
  have hwrites : pass.reservedRows scene 1 = [1, 1] := by decide +kernel
  have hrows : ∀ row ∈ pass.reservedRows scene 1, row = 1 := by
    rw [hwrites]
    exact List.forall_mem_cons.2 ⟨rfl, List.forall_mem_singleton.2 rfl⟩
  obtain ⟨-, hchanged, hfails, -⟩ := calls_confined (.act .empty hact) (Array.mem_singleton.2 rfl)
    scene .state 0 false scene 1
  have hunchanged := hfails (tabled_start still couple intruding.scratch still.grid)
    (Birth.standard.withId 0) (.done ()) (.setPostPosition _ _) _ hlate
  exact ⟨by decide +kernel, by decide +kernel, hchanged hrows, hlate, hunchanged.1⟩

/-- **A module can write the reserved values of another row.** Called for the first particle, the intruder
assigns the index of the second one, and the values that change are in the row of that. -/
theorem intrudes_into_other_row :
    let scene := still.start couple intruding.scratch still.grid
    let pass := scene.passOf intruding.scratch .state 0 ⟨intruder, ⟨true, #[]⟩⟩
    let after := (pass.visit (false, scene) 0).2
    scene.table.get? 1 0 = some 0 ∧ after.table.get? 1 0 = some 1 ∧
      ¬ scene.ChangedOnly intruding.scratch intruder 0 [0] after := by
  intro scene pass after
  have hbefore : scene.table.get? 1 0 = some 0 := by decide +kernel
  have hafter : after.table.get? 1 0 = some 1 := by decide +kernel
  refine ⟨hbefore, hafter, fun hchanged => ?_⟩
  -- in the second row the module could change no reserved value if it went by the first one
  have hsame := hchanged.value_eq 1 (.reserved .preX) 0 rfl (by
    rintro ⟨number, hnumber, hrow⟩
    obtain rfl := List.mem_singleton.1 hnumber
    exact absurd hrow (by decide))
  rw [hbefore, hafter] at hsame
  exact absurd hsame (by decide +kernel)

end Pipeline

end ParticleDynamics
