import ParticleDynamics.Proofs.Module.Procedure
import ParticleDynamics.Proofs.Pipeline.Moments
import ParticleDynamics.Proofs.Scratch.Fields

/-!
# Death and removal

A particle dies by losing its mass, at any moment of a step and at the hands of any module. From
then on the step leaves it alone: no module is called for it, the integration passes over it, and
its record stays as it is (`Scene.SparesDead`, which lasts through a step).

The dead leave the store only when the correct pass is over, and their rows leave the scratch table
with them. The table has one row for each particle all the way through (`Scene.Tabled`), and store
and table drop the same places, so every survivor keeps its row (`Pipeline.step_removes_dead`).
-/

namespace ParticleDynamics

/-- The index of the particle that a module was called for. -/
def Event.index? {α : Type} : Event α → Option Nat
  | .call _ _ index _ => some index
  | .integration => none

namespace Scene

variable {α : Type} [Scalar α] {registry : Registry α} {dt : α}

/-! ## The dead are left alone -/

/-- From an earlier moment to a later one, what was dead has been left alone. -/
structure SparesDead (earlier later : Scene α) : Prop where
  /-- no particle has come or gone -/
  size_eq : later.particles.size = earlier.particles.size
  /-- a dead particle is as it was -/
  record_eq : ∀ index, Particle.isLiveAt earlier.particles index = false →
    later.particles[index]? = earlier.particles[index]?
  /-- no module has been called for a dead particle in the meantime -/
  not_called : ∃ events, later.journal.events.toList = earlier.journal.events.toList ++ events ∧
    ∀ event ∈ events, ∀ index, Particle.isLiveAt earlier.particles index = false →
      event.index? ≠ some index

theorem SparesDead.refl (scene : Scene α) : SparesDead scene scene :=
  ⟨rfl, fun _ _ => rfl, [], (List.append_nil _).symm, List.forall_mem_nil _⟩

/-- A dead particle is still dead later. -/
theorem SparesDead.isLiveAt_eq_false {earlier later : Scene α} (h : SparesDead earlier later)
    {index : Nat} (hdead : Particle.isLiveAt earlier.particles index = false) :
    Particle.isLiveAt later.particles index = false := by
  rw [Particle.isLiveAt, h.record_eq index hdead]
  exact hdead

theorem SparesDead.trans {first second third : Scene α} (h : SparesDead first second)
    (h' : SparesDead second third) : SparesDead first third := by
  refine ⟨h'.size_eq.trans h.size_eq, fun index hdead => ?_, ?_⟩
  · rw [h'.record_eq index (h.isLiveAt_eq_false hdead), h.record_eq index hdead]
  · obtain ⟨events, hevents, hspared⟩ := h.not_called
    obtain ⟨events', hevents', hspared'⟩ := h'.not_called
    refine ⟨events ++ events', by rw [hevents', hevents, List.append_assoc],
      List.forall_mem_append.2 ⟨hspared, fun event hevent index hdead => ?_⟩⟩
    exact hspared' event hevent index (h.isLiveAt_eq_false hdead)

theorem live_ne_dead {particles : Array (Particle α)} {index other : Nat} {p : Particle α}
    (hp : particles[index]? = some p) (halive : p.isAlive = true)
    (hdead : Particle.isLiveAt particles other = false) : index ≠ other := by
  rintro rfl
  rw [Particle.isLiveAt, hp, Option.any_some, halive] at hdead
  cases hdead

/-- **A change to one live particle spares the dead**, if nothing but calls for this particle is
recorded. -/
theorem sparesDead_of_live {earlier later : Scene α} {index : Nat} {p : Particle α}
    (hp : earlier.particles[index]? = some p) (halive : p.isAlive = true) {q : Particle α}
    (hparticles : later.particles = earlier.particles.modify index fun _ => q)
    {events : List (Event α)}
    (hevents : later.journal.events.toList = earlier.journal.events.toList ++ events)
    (hindex : ∀ event ∈ events, event.index? = some index) : SparesDead earlier later := by
  refine ⟨by rw [hparticles, Array.size_modify], fun other hdead => ?_, events, hevents,
    fun event hevent other hdead => ?_⟩
  · rw [hparticles, Array.getElem?_modify, if_neg (live_ne_dead hp halive hdead)]
  · rw [hindex event hevent, Ne, Option.some.injEq]
    exact live_ne_dead hp halive hdead

theorem sparesDead_visit (pass : Pass α) (failed : Bool) (scene : Scene α) (index : Nat) :
    SparesDead scene (pass.visit (failed, scene) index).2 := by
  rcases pass.visit_cases failed scene index with ⟨-, h⟩ | ⟨p, journal, hp, halive, h, hevents⟩
  · rw [h]
    exact .refl scene
  · rw [h]
    have hpush : journal.events.toList =
        scene.journal.events.toList ++ [(pass.callAt index).event] :=
      (congrArg Array.toList hevents).trans Array.toList_push
    refine sparesDead_of_live hp halive rfl hpush fun event hevent => ?_
    rw [List.mem_singleton.1 hevent]
    rfl

theorem sparesDead_integrateAt (scene : Scene α) (index : Nat) :
    SparesDead scene (scene.integrateAt dt index) := by
  rcases scene.integrateAt_cases dt index with ⟨-, h⟩ | ⟨p, table, hp, halive, h, -⟩
  · rw [h]
    exact .refl scene
  · rw [h]
    exact sparesDead_of_live hp halive rfl (List.append_nil _).symm (List.forall_mem_nil _)

/-- **The dead are left alone** by everything that happens in a step. A visit asks whether its
particle is alive before anything else, and so does the integration. -/
theorem lasting_sparesDead : Lasting registry dt SparesDead where
  refl := .refl
  trans := .trans
  visit began phase {entry} _ failed scene index _ :=
    sparesDead_visit (began.passOf registry.scratch phase dt entry) failed scene index
  integrateAt := sparesDead_integrateAt
  integrated scene :=
    ⟨rfl, fun _ _ => rfl, [.integration], Array.toList_push, by
      rintro event hevent index -
      rw [List.mem_singleton.1 hevent]
      exact (Option.some_ne_none index).symm⟩
  rebuild {scene began} hbegan := by
    obtain ⟨grid, -, rfl⟩ := rebuild_eq_ok_iff.1 hbegan
    exact ⟨rfl, fun _ _ => rfl, [], (List.append_nil _).symm, List.forall_mem_nil _⟩

/-! ## One row for each particle -/

/-- The scratch table has one row for each particle. -/
def Tabled (layout : ScratchLayout) (scene : Scene α) : Prop :=
  scene.table.Fits layout scene.particles.size

/-- **There is one row for each particle to the end of a step.** The table has been resized for the
step before its first pass, and nothing after that adds particles or rows. -/
theorem lasting_tabled : Lasting registry dt fun (earlier later : Scene α) =>
    earlier.Tabled registry.scratch → later.Tabled registry.scratch where
  refl _ h := h
  trans h h' hearlier := h' (h hearlier)
  visit began phase {entry} _ failed scene index _ h := by
    let pass := began.passOf registry.scratch phase dt entry
    rcases pass.visit_cases failed scene index with ⟨-, hvisit⟩ | ⟨p, journal, -, -, hvisit, -⟩
    · rw [hvisit]
      exact h
    · -- a call writes cells of the table, which keeps its shape
      rw [hvisit]
      have hsize : (pass.acted scene index p).particles.size = scene.particles.size :=
        Array.size_modify
      rw [Tabled, hsize]
      exact Procedure.table_induction pass.site
        (motive := fun table => table.Fits registry.scratch scene.particles.size)
        (fun table row slot value ih => ih.set row slot value) _ h
  integrateAt scene index h := by
    rcases scene.integrateAt_cases dt index with ⟨-, hsame⟩ | ⟨p, table, -, -, hmoved, rfl⟩
    · rw [hsame]
      exact h
    · rw [hmoved, Tabled, Array.size_modify]
      exact (((Table.Fits.set h ..).set ..).set ..).set ..
  integrated _ h := h
  rebuild {scene began} hbegan h := by
    obtain ⟨grid, -, rfl⟩ := rebuild_eq_ok_iff.1 hbegan
    exact h

/-! ## The integration -/

/-- Integrating one particle touches no other particle and no other row. -/
theorem integrateAt_ne (scene : Scene α) (dt : α) {index other : Nat} (h : index ≠ other) :
    (scene.integrateAt dt index).particles[other]? = scene.particles[other]? ∧
      (scene.integrateAt dt index).table.row other = scene.table.row other := by
  rcases scene.integrateAt_cases dt index with ⟨-, hsame⟩ | ⟨p, table, -, -, hmoved, rfl⟩
  · rw [hsame]
    exact ⟨rfl, rfl⟩
  · rw [hmoved]
    refine ⟨by rw [Array.getElem?_modify, if_neg h], ?_⟩
    dsimp only [Table.setPair]
    rw [Table.row_set_ne h, Table.row_set_ne h, Table.row_set_ne h, Table.row_set_ne h]

/-- Integrating one particle, if it is alive. -/
theorem getElem?_integrateAt (scene : Scene α) (dt : α) (index : Nat) :
    (scene.integrateAt dt index).particles[index]? =
      scene.particles[index]?.map fun p => if p.isAlive then p.integrate dt else p := by
  rcases scene.integrateAt_cases dt index with ⟨hdead, hsame⟩ | ⟨p, table, hp, halive, hmoved, -⟩
  · rw [hsame]
    rw [Particle.isLiveAt, Option.any_eq_false] at hdead
    cases hp : scene.particles[index]? with
    | none => rfl
    | some p => rw [Option.map_some, hdead p hp, if_neg Bool.false_ne_true]
  · rw [hmoved, Array.getElem?_modify, if_pos rfl, hp, Option.map_some, Option.map_some,
      if_pos halive]

/-- **The integration** takes every particle that is alive on by the duration of the step. -/
theorem particles_integrate (scene : Scene α) (dt : α) :
    (scene.integrate dt).particles =
      scene.particles.map fun p => if p.isAlive then p.integrate dt else p := by
  -- after some particles, those with a smaller index have been taken on
  have hfront (index count : Nat) :
      ((List.range count).foldl (integrateAt dt) scene).particles[index]? =
        if index < count then
          scene.particles[index]?.map fun p => if p.isAlive then p.integrate dt else p
        else scene.particles[index]? := by
    induction count with
    | zero => exact (if_neg (Nat.not_lt_zero index)).symm
    | succ count ih =>
      rw [List.range_succ, List.foldl_append, List.foldl_cons, List.foldl_nil]
      by_cases hlast : count = index
      · subst hlast
        rw [getElem?_integrateAt, ih, if_neg (Nat.lt_irrefl _), if_pos (Nat.lt_succ_self _)]
      · rw [(integrateAt_ne _ dt hlast).1, ih]
        exact ite_congr (propext (by omega)) (fun _ => rfl) fun _ => rfl
  refine Array.ext_getElem? fun index => ?_
  rw [integrate, Array.getElem?_map]
  refine (hfront index scene.particles.size).trans ?_
  split
  next => rfl
  next hindex => rw [Array.getElem?_eq_none (Nat.not_lt.1 hindex), Option.map_none]

theorem integrateAt_of_dead (scene : Scene α) {index : Nat}
    (h : Particle.isLiveAt scene.particles index = false) :
    scene.integrateAt dt index = scene := by
  rcases scene.integrateAt_cases dt index with ⟨-, hsame⟩ | ⟨p, table, hp, halive, -, -⟩
  · exact hsame
  · exact absurd rfl (live_ne_dead hp halive h)

/-- **The integration passes over the dead**: neither their records nor their rows change. The
reserved values of a dead particle thus keep what an earlier step has left in them. -/
theorem integrate_of_dead (scene : Scene α) {index : Nat}
    (h : Particle.isLiveAt scene.particles index = false) :
    (scene.integrate dt).particles[index]? = scene.particles[index]? ∧
      (scene.integrate dt).table.row index = scene.table.row index := by
  rw [integrate]
  refine List.foldlRecOn (motive := fun (current : Scene α) =>
    current.particles[index]? = scene.particles[index]? ∧
      current.table.row index = scene.table.row index) _ _ ⟨rfl, rfl⟩ ?_
  rintro current ⟨hrecord, hrow⟩ other -
  by_cases hother : other = index
  · subst hother
    rw [current.integrateAt_of_dead (by rw [Particle.isLiveAt, hrecord]; exact h)]
    exact ⟨hrecord, hrow⟩
  · obtain ⟨hrecord', hrow'⟩ := current.integrateAt_ne dt hother
    exact ⟨hrecord'.trans hrecord, hrow'.trans hrow⟩

/-! ## The survivors -/

/-- The indices of the particles that are alive, from low to high. -/
def survivors (scene : Scene α) : List Nat :=
  (List.range scene.particles.size).filter (Particle.isLiveAt scene.particles)

omit [Scalar α] in
/-- The records in the order of their indices. -/
theorem map_some_particles (scene : Scene α) :
    scene.particles.toList.map some =
      (List.range scene.particles.size).map (scene.particles[·]?) := by
  refine List.ext_getElem? fun index => ?_
  rw [List.getElem?_map, List.getElem?_map, Array.getElem?_toList]
  by_cases hindex : index < scene.particles.size
  · rw [List.getElem?_range hindex, Option.map_some, Array.getElem?_eq_getElem hindex,
      Option.map_some]
  · rw [Array.getElem?_eq_none (by omega), List.getElem?_eq_none (by rw [List.length_range]; omega)]
    rfl

/-- The flags of the places that are kept. -/
theorem map_isAlive_particles (scene : Scene α) :
    scene.particles.toList.map Particle.isAlive =
      (List.range scene.particles.size).map (Particle.isLiveAt scene.particles) := by
  have hflags := congrArg (List.map (Option.any Particle.isAlive)) scene.map_some_particles
  rw [List.map_map, List.map_map] at hflags
  exact hflags

/-- The live records are those of the survivors. -/
theorem map_some_filter_particles (scene : Scene α) :
    (scene.particles.filter Particle.isAlive).toList.map some =
      scene.survivors.map (scene.particles[·]?) := by
  have hfilter := congrArg (List.filter (Option.any Particle.isAlive)) scene.map_some_particles
  rw [List.filter_map, List.filter_map] at hfilter
  rw [Array.toList_filter]
  exact hfilter

theorem length_survivors (scene : Scene α) :
    scene.survivors.length = (scene.particles.filter Particle.isAlive).size := by
  have hlength := congrArg List.length scene.map_some_filter_particles
  rw [List.length_map, List.length_map, Array.length_toList] at hlength
  exact hlength.symm

/-- **The rows of the survivors are left**, when the places of the dead are dropped. Particles are
filtered by the same flags, and this is why row and particle stay side by side. -/
theorem Tabled.rowsList_retainRows {layout : ScratchLayout} {scene : Scene α}
    (h : scene.Tabled layout) :
    (scene.table.retainRows (scene.particles.toList.map Particle.isAlive)).rowsList =
      scene.survivors.map scene.table.row := by
  rw [(h.hasRows.retainRows _).2, Table.rowsList, h.hasRows.rows_eq,
    map_isAlive_particles, Table.kept, List.zip_map', List.filter_map, List.map_map]
  rfl

/-- As many rows are left as records are alive. -/
theorem Tabled.fits_retainRows {layout : ScratchLayout} {scene : Scene α}
    (h : scene.Tabled layout) :
    (scene.table.retainRows (scene.particles.toList.map Particle.isAlive)).Fits layout
      (scene.particles.filter Particle.isAlive).size := by
  obtain ⟨hrows, hlist⟩ := h.hasRows.retainRows (scene.particles.toList.map Particle.isAlive)
  have hcount := congrArg List.length (hlist.symm.trans h.rowsList_retainRows)
  rw [List.length_map, length_survivors] at hcount
  rw [hcount] at hrows
  exact ⟨hrows, (Table.stride_retainRows ..).trans h.stride_eq⟩

/-- Reading what is left: the rows of the survivors, one after the other. -/
theorem Tabled.get?_retainRows {layout : ScratchLayout} {scene : Scene α}
    (h : scene.Tabled layout) (place : Nat) {slot : Nat} (hslot : slot < layout.stride) :
    (scene.table.retainRows (scene.particles.toList.map Particle.isAlive)).get? place slot =
      scene.survivors[place]?.bind (scene.table.get? · slot) := by
  have hfits := h.fits_retainRows
  rw [Table.get?_eq_bind_rowsList hfits.hasRows place (hfits.stride_eq ▸ hslot),
    h.rowsList_retainRows, List.getElem?_map, Option.bind_map]
  refine Option.bind_congr fun index _ => ?_
  exact (Table.get?_eq_getElem?_row index (h.stride_eq ▸ hslot)).symm

end Scene

namespace Pipeline

variable {α : Type} [Scalar α] {p : Pipeline α} {store : Store α} {registry : Registry α} {dt : α}

/-- A step begins with one row for each particle. -/
theorem tabled_start (p : Pipeline α) (store : Store α) (layout : ScratchLayout)
    (grid : BucketGrid α) : (p.start store layout grid).Tabled layout := by
  have hpos : 0 < layout.stride := Nat.add_pos_left (by decide) _
  rw [Scene.Tabled, start, tableFor]
  split
  next hsame => exact ⟨Table.hasRows_resize (hsame ▸ hpos) store.size, hsame⟩
  next => exact ⟨Table.hasRows_resize hpos store.size, rfl⟩

namespace Course

/-- The scene that the apply pass leaves to the integration. -/
def applied (course : Course p store registry dt) : Scene α :=
  course.apply.runPhase registry registry.scratch .apply dt

/-- The state pass begins with one row for each particle. -/
theorem tabled_state (course : Course p store registry dt) : course.state.Tabled registry.scratch := by
  obtain ⟨grid, -, hstate⟩ := Scene.rebuild_eq_ok_iff.1 course.rebuild_start
  rw [← hstate]
  exact p.tabled_start store registry.scratch course.grid

/-- The correct pass ends with one row for each particle. -/
theorem tabled_last (course : Course p store registry dt) : course.last.Tabled registry.scratch :=
  (course.along_moments Scene.lasting_tabled).through course.tabled_state

theorem size_last (course : Course p store registry dt) :
    course.last.particles.size = store.size := by
  rw [(course.along_moments Scene.lasting_sparesDead).through.size_eq, course.particles_state]
  rfl

end Course

/-- **Death is final, and the dead are removed without a trace.** From any moment of a step to any
later one, no module is called for a particle that was dead at the earlier one, and its record stays
as it is; the integration passes over it. After the step the store holds the records that were alive
in the end, in their order, the table holds their rows in the same order, and the report tells how
many they are and how many are gone. -/
theorem step_removes_dead (p : Pipeline α) (store : Store α) (registry : Registry α) (dt : α)
    {stepped : Stepped α} (h : p.step store registry dt = .ok stepped) :
    ∃ course : Course p store registry dt,
      course.state.particles = store.particles ∧ course.moments.Pairwise Scene.SparesDead ∧
      stepped.journal = course.last.journal ∧
      (∀ index, Particle.isLiveAt course.applied.particles index = false →
        course.integrated.particles[index]? = course.applied.particles[index]? ∧
          course.integrated.table.row index = course.applied.table.row index) ∧
      stepped.store.particles.toList.map some =
        course.last.survivors.map (course.last.particles[·]?) ∧
      course.last.table.rows = store.size ∧
      stepped.pipeline.table.rows = stepped.store.size ∧
      stepped.pipeline.table.rowsList = course.last.survivors.map course.last.table.row ∧
      stepped.report.live = stepped.store.size ∧
      stepped.report.removed + stepped.report.live = store.size := by
  obtain ⟨course, rfl⟩ := exists_course_finish h
  have hrecords := course.last.map_some_filter_particles
  have hrows := course.tabled_last.rowsList_retainRows
  have hlive : (course.last.particles.filter Particle.isAlive).size ≤ course.last.particles.size :=
    Array.size_filter_le
  refine ⟨course, course.particles_state, Scene.lasting_sparesDead.pairwise_moments course, rfl,
    fun index hdead => ?_, hrecords, ?_, ?_, hrows, rfl, ?_⟩
  · rw [course.integrated_eq]
    exact course.applied.integrate_of_dead hdead
  · rw [course.tabled_last.hasRows.rows_eq, course.size_last]
  · rw [← Table.length_rowsList]
    exact (congrArg List.length hrows).trans
      ((List.length_map _).trans course.last.length_survivors)
  · exact (Nat.sub_add_cancel hlive).trans course.size_last

/-- The reaper kills the first of two particles in the state pass, and one particle is left. -/
theorem step_removes_dead_deadly :
    ∃ stepped, still.step couple deadly 0 = .ok stepped ∧ stepped.report.removed = 1 ∧
      stepped.store.size = 1 ∧ stepped.pipeline.table.rows = 1 := by
  have hrun : (still.step couple deadly 0 >>= fun stepped => .ok stepped.report.live) = .ok 1 := by
    decide +kernel
  obtain ⟨stepped, hstep, hone⟩ := bind_eq_ok_iff.1 hrun
  obtain ⟨course, -, -, -, -, -, -, hrows, -, hlive, hsum⟩ :=
    step_removes_dead still couple deadly 0 hstep
  have hone : stepped.report.live = 1 := Except.ok.inj hone
  have hcouple : couple.size = 2 := rfl
  exact ⟨stepped, hstep, by omega, by omega, by omega⟩

end Pipeline

end ParticleDynamics
