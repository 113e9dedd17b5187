import ParticleDynamics.Proofs.Particle.Places
import ParticleDynamics.Proofs.Pipeline.Deaths

/-!
# What rows remember from step to step

The scratch table is kept between two steps, but the store may change in the meantime, and then
nobody tells the table. At the beginning of the next step each place has the row that it had, and a
place that there was not has a row of zeros.

So a row goes on belonging to the same particle exactly if the store has kept places
(`rowsFollow_resize_iff`). Births and deaths keep them, so over these every particle finds its row
again (`Pipeline.rows_follow`). Removing the dead between two steps moves the particles behind them
to places with the rows of others (`Pipeline.rows_misplaced_by_compact`); a step that removes them
moves the rows as well.
-/

namespace ParticleDynamics

variable {α : Type}

/-! ## Rows and identities -/

/-- Every identity of the new list has the row that it had in the old one, and a row of zeros when
the old one does not have it. -/
structure RowsFollow [Zero α] (old : List ParticleId) (left : Table α) (new : List ParticleId)
    (found : Table α) : Prop where
  known : ∀ (place other : Nat) (id : ParticleId), old[place]? = some id → new[other]? = some id →
    found.row other = left.row place
  fresh : ∀ (other : Nat) (id : ParticleId), new[other]? = some id → id ∉ old →
    found.row other = List.replicate left.stride 0

/-- A table of zeros but for the first cell of one row. -/
def marked [Zero α] (stride count place : Nat) (x : α) : Table α :=
  ((Table.create stride).resize count).set place 0 x

section Marked

variable [Zero α] {stride count place : Nat} {x : α}

theorem stride_marked : (marked stride count place x).stride = stride := Table.stride_set ..

theorem hasRows_marked (hpos : 0 < stride) : (marked stride count place x).HasRows count :=
  (Table.hasRows_resize hpos count).set ..

/-- No other row is marked. -/
theorem row_marked_ne (hpos : 0 < stride) {other : Nat} (hother : other < count)
    (hne : place ≠ other) : (marked stride count place x).row other = List.replicate stride 0 := by
  rw [marked, Table.row_set_ne hne, Table.row_resize (Table.hasRows_create hpos) hother,
    if_neg (Nat.not_lt_zero other)]
  rfl

/-- The mark tells a row from one of zeros. -/
theorem row_marked_self (hpos : 0 < stride) (hplace : place < count) (hx : x ≠ 0) :
    (marked stride count place x).row place ≠ List.replicate stride 0 := by
  have hholds : ((Table.create stride : Table α).resize count).holds place 0 = true := by
    have hlt : place * stride < count * stride := Nat.mul_lt_mul_of_pos_right hplace hpos
    refine decide_eq_true ⟨hpos, ?_⟩
    rw [Table.size_resize]
    exact hlt
  have hcell : (marked stride count place x).get? place 0 = some x := Table.get?_set_self hholds
  have hslot : 0 < (marked stride count place x).stride := by
    rw [stride_marked]
    exact hpos
  rw [Table.get?_eq_getElem?_row place hslot] at hcell
  intro hzeros
  rw [hzeros, List.getElem?_replicate, if_pos hpos, Option.some.injEq] at hcell
  exact hx hcell.symm

end Marked

/-- Rows follow identities if places are kept. -/
theorem rowsFollow_of_keepsPlaces [Zero α] {old new : List ParticleId} {left : Table α}
    (hkeeps : KeepsPlaces old new) (hrows : left.HasRows old.length) :
    RowsFollow old left new (left.resize new.length) := by
  refine ⟨fun place other id hid hid' => ?_, fun other id hid hnew => ?_⟩
  · obtain rfl := (hkeeps place other id id hid hid').1 rfl
    have hplace : place < old.length := (List.getElem?_eq_some_iff.1 hid).1
    rw [Table.row_resize hrows (List.getElem?_eq_some_iff.1 hid').1, if_pos hplace]
  · rw [Table.row_resize hrows (List.getElem?_eq_some_iff.1 hid).1, if_neg]
    intro hother
    have hold : old[other]? = some old[other] := List.getElem?_eq_getElem hother
    have hsame := (hkeeps other other old[other] id hold hid).2 rfl
    exact hnew (hsame ▸ List.getElem_mem hother)

/-- **Rows follow identities exactly if places are kept**, whatever the rows hold. A row that is not
zero can tell where it was, so nothing but keeping the places makes all of them come right. -/
theorem rowsFollow_resize_iff [Zero α] {x : α} (hx : x ≠ 0) {stride : Nat} (hpos : 0 < stride)
    {old new : List ParticleId} :
    (∀ left : Table α, left.stride = stride → left.HasRows old.length →
        RowsFollow old left new (left.resize new.length)) ↔ KeepsPlaces old new := by
  constructor
  · intro hall
    -- a mark in one row shows where this row goes
    have hfollow (place : Nat) := hall (marked stride old.length place x) stride_marked
      (hasRows_marked hpos)
    have hsame {place other : Nat} {id : ParticleId} (hid : old[place]? = some id)
        (hid' : new[other]? = some id) : place = other := by
      have hplace : place < old.length := (List.getElem?_eq_some_iff.1 hid).1
      have hother : other < new.length := (List.getElem?_eq_some_iff.1 hid').1
      by_contra hne
      have hrow := (hfollow place).known place other id hid hid'
      rw [Table.row_resize (hasRows_marked hpos) hother] at hrow
      refine row_marked_self hpos hplace hx (hrow.symm.trans ?_)
      split
      next hlt => exact row_marked_ne hpos hlt hne
      next => rw [stride_marked]
    intro place other id id' hid hid'
    constructor
    · rintro rfl
      exact hsame hid hid'
    · rintro rfl
      have hplace : place < old.length := (List.getElem?_eq_some_iff.1 hid).1
      have hplace' : place < new.length := (List.getElem?_eq_some_iff.1 hid').1
      by_cases hmem : id' ∈ old
      · obtain ⟨other, hother⟩ := List.mem_iff_getElem?.1 hmem
        obtain rfl := hsame hother hid'
        exact Option.some.inj (hid.symm.trans hother)
      · -- a particle that is new here would find the mark
        have hrow := (hfollow place).fresh place id' hid' hmem
        rw [Table.row_resize (hasRows_marked hpos) hplace', if_pos hplace, stride_marked] at hrow
        exact absurd hrow (row_marked_self hpos hplace hx)
  · intro hkeeps left hstride hrows
    exact rowsFollow_of_keepsPlaces hkeeps hrows

variable [Scalar α]

/-! ## Modules that keep identities -/

/-- A module that never gives a particle another identity. -/
def Module.KeepsIdentity (m : Module α) : Prop :=
  ∀ (phase : Phase) (view : View α) (site : Procedure.Site) (reach : Procedure.Reach α),
    ((m.run phase view).run site reach).2.particle.id = reach.particle.id

theorem id_integrate (p : Particle α) (dt : α) : (p.integrate dt).id = p.id := by
  rw [Particle.integrate]
  split
  · rfl
  · rfl

/-- **Identities last through a step**, when all modules keep them. Calls are the only part of a
step that can write records of their own making. -/
theorem Scene.lasting_identities {registry : Registry α} {dt : α}
    (hkeeps : ∀ entry ∈ registry.entries, entry.module.KeepsIdentity) :
    Lasting registry dt fun earlier later =>
      later.particles.map Particle.id = earlier.particles.map Particle.id :=
  lasting_map hkeeps fun p => id_integrate p dt

namespace Pipeline

variable {p : Pipeline α} {store store' : Store α} {registry : Registry α} {dt dt' : α}

/-- **A step leaves no identity in the store that was not in it**, when all modules keep
identities. -/
theorem ids_finish_sublist (course : Course p store registry dt)
    (hkeeps : ∀ entry ∈ registry.entries, entry.module.KeepsIdentity) :
    (p.finish store course.last).store.ids.Sublist store.ids := by
  have hids := (course.along_moments (Scene.lasting_identities hkeeps)).through
  rw [course.particles_state] at hids
  have hlist := congrArg Array.toList hids
  rw [Array.toList_map, Array.toList_map] at hlist
  rw [Store.ids, Store.ids, ← hlist]
  exact (Array.toList_filter ▸ List.filter_sublist).map _

/-- **A step leaves a store in order**, when all modules keep identities. What is left of ascending
identities is ascending. -/
theorem orderly_finish (course : Course p store registry dt)
    (hkeeps : ∀ entry ∈ registry.entries, entry.module.KeepsIdentity) (hstore : store.Orderly) :
    (p.finish store course.last).store.Orderly :=
  hstore.of_sublist (ids_finish_sublist course hkeeps) rfl

/-- What a pipeline and a store come through when steps and commands take turns, from a store in
order on. A whole set is taken in only if the store admits it. -/
inductive Interleaving (registry : Registry α) : Pipeline α → Store α → Prop where
  /-- a pipeline and a store in order -/
  | start {p : Pipeline α} {store : Store α} (hstore : store.Orderly) : Interleaving registry p store
  /-- one command more -/
  | command {p : Pipeline α} {store store' : Store α} {command : Store.Command α}
      (h : Interleaving registry p store) (hadmits : store.AdmitsAll command)
      (hcommand : store.perform command = .ok store') : Interleaving registry p store'
  /-- one step more -/
  | step {p : Pipeline α} {store : Store α} {dt : α} {stepped : Stepped α}
      (h : Interleaving registry p store) (hstep : p.step store registry dt = .ok stepped) :
      Interleaving registry stepped.pipeline stepped.store

/-- **The store is in order all the way**, when all modules keep identities. -/
theorem Interleaving.orderly (h : Interleaving registry p store)
    (hkeeps : ∀ entry ∈ registry.entries, entry.module.KeepsIdentity) : store.Orderly := by
  induction h with
  | start hstore => exact hstore
  | command _ hadmits hcommand ih => exact (ih.perform_iff hcommand).2 hadmits
  | step _ hstep ih =>
    obtain ⟨course, rfl⟩ := exists_course_finish hstep
    exact orderly_finish course hkeeps ih

/-- A step leaves one row for each particle that is left. -/
theorem fits_finish (course : Course p store registry dt) :
    (p.finish store course.last).pipeline.table.Fits registry.scratch
      (p.finish store course.last).store.size :=
  course.tabled_last.fits_retainRows

/-- The table at the beginning of a step is the one that was left, for as many particles as there
are now. -/
theorem table_state (course : Course p store registry dt)
    (hstride : p.table.stride = registry.scratch.stride) :
    course.state.table = p.table.resize store.size := by
  obtain ⟨grid, -, hstate⟩ := Scene.rebuild_eq_ok_iff.1 course.rebuild_start
  rw [← hstate]
  change p.tableFor registry.scratch store.size = _
  rw [tableFor, if_pos hstride]

/-- **Rows stay at their places from one step to the next**, and places that are new have rows of
zeros. So a row is found again by the particle that left it, whatever the rows hold, exactly if the
store has kept places in the meantime. However steps and commands have taken turns before, births and
deaths keep places, as long as no module changes an identity. -/
theorem rows_follow (p : Pipeline α) (store : Store α) (registry : Registry α) (dt : α)
    {stepped : Stepped α} (h : p.step store registry dt = .ok stepped) {store' : Store α} {dt' : α}
    {next : Stepped α} (h' : stepped.pipeline.step store' registry dt' = .ok next) :
    ∃ course : Course stepped.pipeline store' registry dt',
      course.state.particles = store'.particles ∧
      (∀ place < store'.size, course.state.table.row place =
        if place < stepped.store.size then stepped.pipeline.table.row place
        else List.replicate registry.scratch.stride 0) ∧
      (KeepsPlaces stepped.store.ids store'.ids →
        RowsFollow stepped.store.ids stepped.pipeline.table store'.ids course.state.table) ∧
      (∀ x : α, x ≠ 0 →
        ((∀ left : Table α, left.Fits registry.scratch stepped.store.size →
            RowsFollow stepped.store.ids left store'.ids (left.resize store'.size)) ↔
          KeepsPlaces stepped.store.ids store'.ids)) ∧
      (Interleaving registry p store →
        (∀ entry ∈ registry.entries, entry.module.KeepsIdentity) →
        ∀ commands, (∀ command ∈ commands, command.Vital) →
          stepped.store.performAll commands = .ok store' →
          RowsFollow stepped.store.ids stepped.pipeline.table store'.ids course.state.table) := by
  obtain ⟨before, rfl⟩ := exists_course_finish h
  obtain ⟨course, -⟩ := exists_course_finish h'
  have hfits := fits_finish before
  have htable := table_state course hfits.stride_eq
  have hpos : 0 < registry.scratch.stride := Nat.add_pos_left (by decide) _
  rw [← Store.length_ids] at hfits
  have hfollow (hkeeps : KeepsPlaces (p.finish store before.last).store.ids store'.ids) :
      RowsFollow (p.finish store before.last).store.ids
        (p.finish store before.last).pipeline.table store'.ids course.state.table := by
    rw [htable, ← Store.length_ids]
    exact rowsFollow_of_keepsPlaces hkeeps hfits.hasRows
  refine ⟨course, course.particles_state, fun place hplace => ?_, hfollow, fun x hx => ?_,
    fun hinterleaving hkeeps commands hvital hcommands => hfollow ?_⟩
  · rw [htable, Table.row_resize hfits.hasRows hplace, Store.length_ids, hfits.stride_eq]
  · rw [← rowsFollow_resize_iff hx hpos, ← Store.length_ids, ← Store.length_ids]
    exact ⟨fun hall left hstride hrows => hall left ⟨hrows, hstride⟩,
      fun hall left hleft => hall left hleft.stride_eq hleft.hasRows⟩
  · exact (Store.extends_performAll hvital hcommands).keepsPlaces
      (orderly_finish before hkeeps (hinterleaving.orderly hkeeps))

/-! ## A mark in the row of the first particle -/

/-- A module that marks the row of the first particle. -/
def marker : Module Single where
  name := "marker"
  role := .force { state := true }
  fields := ["mark"]
  run := fun _ view => if view.index = 0 then .setFieldOf "mark" 0 1 else .done ()
  fragment := fun _ => .done none

/-- This module alone. -/
def marking : Registry Single := { entries := #[⟨marker, ⟨true, #[]⟩⟩] }

/-- The marker touches no particle. -/
theorem keepsIdentity_marker : marker.KeepsIdentity := by
  intro phase view site reach
  change ((if view.index = 0 then Procedure.setFieldOf "mark" 0 1 else .done ()).run site
    reach).2.particle.id = reach.particle.id
  split
  next =>
    rw [Procedure.setFieldOf, Procedure.run]
    split
    next slot hslot =>
      rw [Procedure.snd_run_require, Procedure.particle_put]
    next => rfl
  next => rfl

/-- After a death and a birth the two particles find their rows again. -/
theorem rows_follow_marking :
    ∃ stepped store', still.step couple marking 0 = .ok stepped ∧
      stepped.store.performAll [.kill 0, .spawn .standard] = .ok store' ∧ store'.ids = [0, 1, 2] ∧
      ∃ course : Course stepped.pipeline store' marking 0,
        RowsFollow stepped.store.ids stepped.pipeline.table store'.ids course.state.table := by
  have hrun : (still.step couple marking 0 >>= fun stepped =>
      stepped.store.performAll [.kill 0, .spawn .standard] >>= fun store' =>
        stepped.pipeline.step store' marking 0 >>= fun _ => .ok store'.ids) = .ok [0, 1, 2] := by
    decide +kernel
  obtain ⟨stepped, hstep, hrun⟩ := bind_eq_ok_iff.1 hrun
  obtain ⟨store', hcommands, hrun⟩ := bind_eq_ok_iff.1 hrun
  obtain ⟨next, hnext, hids⟩ := bind_eq_ok_iff.1 hrun
  obtain ⟨course, -, -, -, -, hfollow⟩ := rows_follow still couple marking 0 hstep hnext
  have hcouple : couple.Orderly := ⟨by decide, by decide⟩
  have hkeeps : ∀ entry ∈ marking.entries, entry.module.KeepsIdentity := by
    intro entry hentry
    obtain rfl := Array.mem_singleton.1 hentry
    exact keepsIdentity_marker
  exact ⟨stepped, store', hstep, hcommands, Except.ok.inj hids, course,
    hfollow (.start hcouple) hkeeps _ (by simp [Store.Command.Vital]) hcommands⟩

/-- When the first particle is removed between two steps, the second one finds its row, with the
mark in it. -/
theorem rows_misplaced_by_compact :
    ∃ stepped store', still.step couple marking 0 = .ok stepped ∧
      stepped.store.performAll [.kill 0, .compact] = .ok store' ∧
      (∃ next, stepped.pipeline.step store' marking 0 = .ok next) ∧
      ∀ course : Course stepped.pipeline store' marking 0,
        ¬ RowsFollow stepped.store.ids stepped.pipeline.table store'.ids course.state.table := by
  have hrun : (still.step couple marking 0 >>= fun stepped =>
      stepped.store.performAll [.kill 0, .compact] >>= fun store' =>
        stepped.pipeline.step store' marking 0 >>= fun _ =>
          .ok (stepped.store.ids, store'.ids,
            decide (stepped.pipeline.table.row 0 = stepped.pipeline.table.row 1))) =
      .ok ([0, 1], [1], false) := by decide +kernel
  obtain ⟨stepped, hstep, hrun⟩ := bind_eq_ok_iff.1 hrun
  obtain ⟨store', hcommands, hrun⟩ := bind_eq_ok_iff.1 hrun
  obtain ⟨next, hnext, hrun⟩ := bind_eq_ok_iff.1 hrun
  obtain ⟨hold, hrest⟩ := Prod.mk.inj (Except.ok.inj hrun)
  obtain ⟨hnew, hrows⟩ := Prod.mk.inj hrest
  refine ⟨stepped, store', hstep, hcommands, ⟨next, hnext⟩, fun course hfollow => ?_⟩
  have hfits : stepped.pipeline.table.Fits marking.scratch stepped.store.size := by
    obtain ⟨before, rfl⟩ := exists_course_finish hstep
    exact fits_finish before
  have hrow := hfollow.known 1 0 1 (by rw [hold]; rfl) (by rw [hnew]; rfl)
  rw [table_state course hfits.stride_eq, Table.row_resize hfits.hasRows
    (by rw [← Store.length_ids, hnew]; decide), if_pos (by rw [← Store.length_ids, hold]; decide)]
    at hrow
  exact of_decide_eq_false hrows hrow

end Pipeline

end ParticleDynamics
