import ParticleDynamics.Module.Basic
import ParticleDynamics.Proofs.Module.Procedure
import ParticleDynamics.Proofs.Scratch.Rows

/-!
# What a procedure touches

A **footprint** says which cells of the scratch table may be read and which may be written. A
procedure **stays in** a footprint (`Procedure.StaysIn`) when all its operations do, whatever
answers they get. This is read off the tree, without running it.

Two things follow for its runs. A cell that it may not write stays as it is (`StaysIn.get?_run`).
And if someone else writes a cell that it may neither read nor write, it makes no difference to the
procedure, and the procedure makes none to the write (`StaysIn.run_set`). Procedures whose
footprints are clear of each other can therefore run in either order (`StaysIn.run_after`).
-/

namespace ParticleDynamics

/-- Cells of the scratch table, each given by its row and its slot, that may be read or written. -/
structure Footprint where
  /-- the cells that may be read -/
  reads : Nat → Nat → Prop
  /-- the cells that may be written -/
  writes : Nat → Nat → Prop

namespace Footprint

/-- All cells may be read, and none written. -/
def readOnly : Footprint := ⟨fun _ _ => True, fun _ _ => False⟩

/-- The cells of one row may be written, and none read. -/
def writeRow (row : UInt32) : Footprint := ⟨fun _ _ => False, fun other _ => other = row.toNat⟩

/-- No cell that may be written here may be touched there. -/
def ClearOf (f g : Footprint) : Prop :=
  ∀ row slot, f.writes row slot → ¬ g.reads row slot ∧ ¬ g.writes row slot

/-- Where nothing is written nobody is disturbed. -/
theorem readOnly_clearOf (f : Footprint) : readOnly.ClearOf f := fun _ _ h => h.elim

/-- Writes to different rows do not meet. -/
theorem writeRow_clearOf {row row' : UInt32} (h : row ≠ row') :
    (writeRow row).ClearOf (writeRow row') := by
  rintro _ slot rfl
  exact ⟨id, fun hsame => h (UInt32.toNat_inj.1 hsame)⟩

end Footprint

namespace Procedure

variable {α β γ : Type}

/-- All operations of a procedure stay in a footprint, whatever they are answered. -/
def StaysIn (site : Site) (f : Footprint) : Procedure α β → Prop
  | done _ => True
  | fault _ => True
  | crash _ => True
  | read next => ∀ particle, (next particle).StaysIn site f
  | write _ next => next.StaysIn site f
  | readField owner name row next =>
    (∀ slot, site.slotOf (owner.getD site.owner) name = .ok slot → f.reads row.toNat slot) ∧
      ∀ answer, (next answer).StaysIn site f
  | writeField name row _ next =>
    (∀ slot, site.slotOf site.owner name = .ok slot → f.writes row.toNat slot) ∧
      ∀ answer, (next answer).StaysIn site f
  | readReserved row slot next =>
    f.reads row.toNat slot.slot ∧ ∀ answer, (next answer).StaysIn site f
  | writeReserved row slot _ next =>
    f.writes row.toNat slot.slot ∧ ∀ answer, (next answer).StaysIn site f
  | note _ next => next.StaysIn site f

/-! ## Data with another table -/

/-- The data on another table. -/
def Reach.on (reach : Reach α) (table : Table α) : Reach α := { reach with table := table }

theorem Reach.table_on (reach : Reach α) (table : Table α) : (reach.on table).table = table := rfl

/-- A cell that reads the same gives the same answer. -/
theorem readCell_congr {table table' : Table α} {row : UInt32} {slot : Nat}
    (h : table.get? row.toNat slot = table'.get? row.toNat slot) :
    readCell table row slot = readCell table' row slot := by
  rw [readCell, h, readCell]

theorem readSlot_congr {table table' : Table α} {row : UInt32} {slot : Except String Nat}
    (h : ∀ place, slot = .ok place → table.get? row.toNat place = table'.get? row.toNat place) :
    (do readCell table row (← slot)) = (do readCell table' row (← slot)) := by
  cases slot with
  | ok place => exact readCell_congr (h place rfl)
  | error message => rfl

/-- The answer to a write: there is a place for it, or a fault. -/
def answerAt (table : Table α) (row : UInt32) (slot : Nat) : Except String Unit :=
  if table.holds row.toNat slot then .ok () else .error (Site.noRow row)

theorem answerAt_congr {table table' : Table α} {row : UInt32} {slot : Nat}
    (h : table.holds row.toNat slot = table'.holds row.toNat slot) :
    answerAt table row slot = answerAt table' row slot := by
  rw [answerAt, h, answerAt]

/-- What a write comes to. -/
theorem put_eq (reach : Reach α) (row : UInt32) (slot : Nat) (value : α) :
    reach.put row slot value =
      (answerAt reach.table row slot, reach.on (reach.table.set row.toNat slot value)) := by
  rw [Reach.put, answerAt]
  split
  next => rfl
  next hplace => rw [Table.set, if_neg hplace, Reach.on]

namespace StaysIn

variable {site : Site} {f : Footprint}

/-! ## Putting procedures together -/

/-- A sequence stays where its parts do. -/
theorem bind {p : Procedure α β} {g : β → Procedure α γ} (hp : p.StaysIn site f)
    (hg : ∀ result, (g result).StaysIn site f) : (p.bind g).StaysIn site f := by
  induction p with
  | done result => exact hg result
  | fault message => trivial
  | crash text => trivial
  | read next ih => exact fun particle => ih particle (hp particle)
  | write particle next ih => exact ih hp
  | readField owner name row next ih => exact ⟨hp.1, fun answer => ih answer (hp.2 answer)⟩
  | writeField name row value next ih => exact ⟨hp.1, fun answer => ih answer (hp.2 answer)⟩
  | readReserved row slot next ih => exact ⟨hp.1, fun answer => ih answer (hp.2 answer)⟩
  | writeReserved row slot value next ih => exact ⟨hp.1, fun answer => ih answer (hp.2 answer)⟩
  | note n next ih => exact ih hp

/-- Passing on an answer touches nothing. -/
theorem require (answer : Except String β) : (require answer : Procedure α β).StaysIn site f := by
  cases answer with
  | ok result => trivial
  | error message => trivial

/-- Relying on a computation touches nothing. -/
theorem sound (answer : Except Breach β) : (sound answer : Procedure α β).StaysIn site f := by
  cases answer with
  | ok result => trivial
  | error breach => trivial

/-- A procedure for each of some values, one after the other. -/
theorem foldlM {step : γ → β → Procedure α γ} (hstep : ∀ result item, (step result item).StaysIn site f)
    (items : List β) (start : γ) : (items.foldlM step start).StaysIn site f := by
  induction items generalizing start with
  | nil => trivial
  | cons item rest ih =>
    rw [List.foldlM_cons]
    exact (hstep start item).bind ih

/-! ### The operations under their own names -/

theorem self : (self : Procedure α (Particle α)).StaysIn site f := fun _ => trivial

theorem update (g : Particle α → Particle α) : (update g).StaysIn site f := fun _ => trivial

/-- Looking for neighbours touches nothing. -/
theorem neighbors [Scalar α] (v : View α) (radius : α) : (neighbors v radius).StaysIn site f :=
  self.bind fun _ => sound _

theorem fieldOf {name : String} {row : UInt32}
    (h : ∀ slot, site.slotOf site.owner name = .ok slot → f.reads row.toNat slot) :
    (fieldOf name row : Procedure α α).StaysIn site f :=
  ⟨h, require⟩

theorem setFieldOf {name : String} {row : UInt32}
    (h : ∀ slot, site.slotOf site.owner name = .ok slot → f.writes row.toNat slot) (value : α) :
    (setFieldOf name row value).StaysIn site f :=
  ⟨h, require⟩

theorem readPair {row : UInt32} {x y : Reserved} (hx : f.reads row.toNat x.slot)
    (hy : f.reads row.toNat y.slot) :
    (readPair row x y : Procedure α (Vec2 α)).StaysIn site f :=
  bind (p := readReserved row x Procedure.require) ⟨hx, require⟩ fun _ =>
    bind (p := readReserved row y Procedure.require) ⟨hy, require⟩ fun _ => trivial

/-! ## Running -/

/-- **What writing the cells of the footprint keeps, the procedure keeps.** The induction is on the
procedure, for whatever it is answered. -/
theorem table_induction {motive : Table α → Prop}
    (hset : ∀ table row slot value, f.writes row slot → motive table →
      motive (table.set row slot value))
    {p : Procedure α β} (hp : p.StaysIn site f) {reach : Reach α} (h : motive reach.table) :
    motive (p.run site reach).2.table := by
  have hput {reach : Reach α} (h : motive reach.table) {row : UInt32} {slot : Nat} (value : α)
      (hwrites : f.writes row.toNat slot) : motive (reach.put row slot value).2.table := by
    rw [table_put]
    exact hset _ _ _ _ hwrites h
  induction p generalizing reach with
  | done result => exact h
  | fault message => exact h
  | crash text => exact h
  | read next ih => exact ih _ (hp _) h
  | write particle next ih => exact ih hp h
  | readField owner name row next ih => exact ih _ (hp.2 _) h
  | writeField name row value next ih =>
    rw [run]
    split
    next slot hslot => exact ih _ (hp.2 _) (hput h value (hp.1 slot hslot))
    next => exact ih _ (hp.2 _) h
  | readReserved row slot next ih => exact ih _ (hp.2 _) h
  | writeReserved row slot value next ih => exact ih _ (hp.2 _) (hput h value hp.1)
  | note n next ih => exact ih hp h

/-- **A cell outside the footprint stays as it is.** It is the frame of a call, and what makes calls
for different particles commute. -/
theorem get?_run {p : Procedure α β} (hp : p.StaysIn site f) {row slot : Nat}
    (h : ¬ f.writes row slot) (reach : Reach α) :
    (p.run site reach).2.table.get? row slot = reach.table.get? row slot := by
  refine hp.table_induction (motive := fun table => table.get? row slot = reach.table.get? row slot)
    (fun table row' slot' value hwrites ih => ?_) rfl
  rw [Table.get?_set_ne _ value, ih]
  rintro ⟨rfl, rfl⟩
  exact h hwrites

/-- A procedure neither adds nor removes a place of the table. -/
theorem holds_run (p : Procedure α β) (reach : Reach α) (row slot : Nat) :
    (p.run site reach).2.table.holds row slot = reach.table.holds row slot :=
  p.table_induction site (motive := fun table => table.holds row slot = reach.table.holds row slot)
    (fun _ _ _ _ ih => (Table.holds_set ..).trans ih) rfl

/-! ## Running in either order -/

/-- **A write outside the footprint passes through.** Done before the procedure runs, it changes
nothing but its own cell in what the procedure leaves. -/
theorem run_set {p : Procedure α β} (hp : p.StaysIn site f) {index slot : Nat}
    (hreads : ¬ f.reads index slot) (hwrites : ¬ f.writes index slot) (value : α)
    (reach : Reach α) :
    p.run site (reach.on (reach.table.set index slot value)) =
      ((p.run site reach).1,
        (p.run site reach).2.on ((p.run site reach).2.table.set index slot value)) := by
  -- the write is out of sight of every read, and may change places with every write
  have hread {row slot' : Nat} (h : f.reads row slot') (table : Table α) :
      (table.set index slot value).get? row slot' = table.get? row slot' := by
    refine Table.get?_set_ne ?_ value
    rintro ⟨rfl, rfl⟩
    exact hreads h
  have hput {reach : Reach α} {row : UInt32} {slot' : Nat} {value' : α}
      (h : f.writes row.toNat slot') :
      (reach.on (reach.table.set index slot value)).put row slot' value' =
        ((reach.put row slot' value').1,
          (reach.put row slot' value').2.on
            ((reach.put row slot' value').2.table.set index slot value)) := by
    have hne : ¬ (index = row.toNat ∧ slot = slot') := by
      rintro ⟨rfl, rfl⟩
      exact hwrites h
    have hanswer : answerAt (reach.table.set index slot value) row slot' =
        answerAt reach.table row slot' := answerAt_congr (Table.holds_set ..)
    rw [put_eq, put_eq, Reach.table_on, hanswer, Table.set_comm hne]
    rfl
  induction p generalizing reach with
  | done result => rfl
  | fault message => rfl
  | crash text => rfl
  | read next ih => exact ih _ (hp _) reach
  | write particle next ih => exact ih hp { reach with particle := particle }
  | readField owner name row next ih =>
    have hanswer := readSlot_congr fun slot' hslot' => hread (hp.1 slot' hslot') reach.table
    rw [run, run]
    dsimp only [Reach.on]
    rw [hanswer]
    exact ih _ (hp.2 _) reach
  | writeField name row value' next ih =>
    rw [run, run]
    split
    next slot' hslot' =>
      rw [hput (hp.1 slot' hslot')]
      exact ih _ (hp.2 _) _
    next => exact ih _ (hp.2 _) reach
  | readReserved row slot' next ih =>
    rw [run, run]
    dsimp only [Reach.on]
    rw [readCell_congr (hread hp.1 reach.table)]
    exact ih _ (hp.2 _) reach
  | writeReserved row slot' value' next ih =>
    rw [run, run, hput hp.1]
    exact ih _ (hp.2 _) _
  | note n next ih => exact ih hp { reach with notes := reach.notes.push n }

/-- **Procedures that are clear of each other run in either order.** After another procedure has
run, a procedure comes to the same end and leaves the same particle as before it, and the table is
the one that the other procedure makes of what this one leaves. -/
theorem run_after {g : Footprint} {site' : Site} {p : Procedure α β} {q : Procedure α γ}
    (hp : p.StaysIn site f) (hq : q.StaysIn site' g) (hclear : f.ClearOf g) (hclear' : g.ClearOf f)
    (reach reach' : Reach α) :
    p.run site (reach.on (q.run site' (reach'.on reach.table)).2.table) =
      ((p.run site reach).1,
        (p.run site reach).2.on
          (q.run site' (reach'.on (p.run site reach).2.table)).2.table) := by
  have hread {row slot : Nat} (h : g.reads row slot) (reach : Reach α) :
      (p.run site reach).2.table.get? row slot = reach.table.get? row slot :=
    hp.get?_run (fun hwrites => (hclear row slot hwrites).1 h) reach
  have hanswer (row : UInt32) (slot : Nat) (reach : Reach α) :
      answerAt (p.run site reach).2.table row slot = answerAt reach.table row slot :=
    answerAt_congr (holds_run ..)
  -- a write of the other procedure passes through this one, and the rest of it follows
  have hwrite {next : Procedure α γ}
      (ih : ∀ reach reach' : Reach α,
        p.run site (reach.on (next.run site' (reach'.on reach.table)).2.table) =
          ((p.run site reach).1, (p.run site reach).2.on
            (next.run site' (reach'.on (p.run site reach).2.table)).2.table))
      {row slot : Nat} (hwrites : g.writes row slot) (value : α) (reach reach' : Reach α) :
      p.run site (reach.on (next.run site' (reach'.on (reach.table.set row slot value))).2.table) =
        ((p.run site reach).1, (p.run site reach).2.on
          (next.run site' (reach'.on ((p.run site reach).2.table.set row slot value))).2.table) := by
    obtain ⟨hreads, hwrites'⟩ := hclear' _ _ hwrites
    have hrest := ih (reach.on (reach.table.set row slot value)) reach'
    rw [hp.run_set hreads hwrites' value reach] at hrest
    exact hrest
  induction q generalizing reach reach' with
  | done result => rfl
  | fault message => rfl
  | crash text => rfl
  | read next ih => exact ih _ (hq _) reach reach'
  | write particle next ih => exact ih hq reach { reach' with particle := particle }
  | readField owner name row next ih =>
    have hanswer := readSlot_congr fun slot hslot => hread (hq.1 slot hslot) reach
    rw [run, run]
    dsimp only [Reach.on]
    rw [hanswer]
    exact ih _ (hq.2 _) reach reach'
  | writeField name row value next ih =>
    rw [run, run]
    split
    next slot hslot =>
      rw [put_eq, put_eq, Reach.table_on, Reach.table_on, hanswer]
      exact hwrite (ih _ (hq.2 _)) (hq.1 slot hslot) value reach reach'
    next => exact ih _ (hq.2 _) reach reach'
  | readReserved row slot next ih =>
    rw [run, run]
    dsimp only [Reach.on]
    rw [readCell_congr (hread hq.1 reach)]
    exact ih _ (hq.2 _) reach reach'
  | writeReserved row slot value next ih =>
    rw [run, run, put_eq, put_eq, Reach.table_on, Reach.table_on, hanswer]
    exact hwrite (ih _ (hq.2 _)) hq.1 value reach reach'
  | note n next ih => exact ih hq reach { reach' with notes := reach'.notes.push n }

end StaysIn

end Procedure

namespace Module

variable {α : Type} {m : Module α} {phase : Phase} {layout : ScratchLayout}

/-- In a phase, the calls of a module for different particles stay in footprints that are clear of
each other. -/
def KeepsApart (m : Module α) (phase : Phase) (layout : ScratchLayout) : Prop :=
  ∃ footprint : UInt32 → Footprint,
    (∀ row row', row ≠ row' → (footprint row).ClearOf (footprint row')) ∧
    ∀ view, (m.run phase view).StaysIn ⟨m.name, layout⟩ (footprint view.index)

/-- A module that writes nothing keeps apart. -/
theorem keepsApart_of_readOnly
    (h : ∀ view site, (m.run phase view).StaysIn site .readOnly) : m.KeepsApart phase layout :=
  ⟨fun _ => .readOnly, fun _ _ _ => Footprint.readOnly_clearOf _, fun view => h view _⟩

/-- A module that reads nothing and writes in the row of the particle keeps apart. -/
theorem keepsApart_of_writeRow
    (h : ∀ view site, (m.run phase view).StaysIn site (.writeRow view.index)) :
    m.KeepsApart phase layout :=
  ⟨.writeRow, fun _ _ => Footprint.writeRow_clearOf, fun view => h view _⟩

end Module

end ParticleDynamics
