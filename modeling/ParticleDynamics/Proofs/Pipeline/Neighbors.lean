import ParticleDynamics.Proofs.Grid.Thinning
import ParticleDynamics.Proofs.Pipeline.Deaths

/-!
# Whom a module finds

A call sees the other particles as they were when its pass began, and asks for its neighbours in an
index. The two agree when the index is that of the particles in view: then the neighbours are those
that an index built afresh from these particles would find (`View.FindsAsIn`). Left out is the
particle that the call's own index names, which is the particle itself unless the module has assigned
another number.

The index is rebuilt before the state pass, before each pass of constraints and before the correct
pass, and in these it agrees with what is in view. The apply pass goes on with the index of the state
pass. There the neighbours are the living ones among those who were near before the state pass moved
anyone (`Pipeline.neighbors_agree`); where the state pass moves no one, this is no difference.
-/

namespace ParticleDynamics

variable {α : Type} [Scalar α]

namespace View

/-- The neighbours in a view are those found by an index built afresh from the given particles, without
the one that the index of the view names, whatever number the module assigns to that. As long as the
module assigns none, it is the particle itself that is left out. -/
def FindsAsIn (v : View α) (bounds : Bounds α) (particles : Array (Particle α)) : Prop :=
  ∃ fresh, (BucketGrid.ofBounds bounds).build particles = .ok fresh ∧
    (∀ point radius, v.neighborsOf point radius = fresh.query point radius (some v.index)) ∧
    ∀ assigned point radius,
      (v.assignIndex assigned).neighborsOf point radius = fresh.query point radius (some assigned)

/-- Neighbours are what the search finds, the dead left out. -/
theorem neighborsOf_eq (v : View α) (point : Vec2 α) (radius : α) :
    v.neighborsOf point radius =
      (v.search point radius (some v.index)).map (·.filter v.isAlive) := by
  rw [neighborsOf]
  cases v.search point radius (some v.index) with
  | error breach => rfl
  | ok found => rfl

end View

namespace Scene

variable {registry : Registry α} {layout : ScratchLayout} {phase : Phase} {dt : α}

/-- What the calls of a pass see is settled when it begins. -/
theorem view_of_mem_callsFrom {began current : Scene α} {entries : List (Entry α)} {call : Call α}
    (h : call ∈ began.callsFrom layout phase dt entries current) :
    call.view.snapshot = began.particles ∧ call.view.search = began.grid.query := by
  induction entries generalizing current with
  | nil => cases h
  | cons entry rest ih =>
    rcases List.mem_append.1 h with hcall | hcall
    · obtain ⟨index, -, rfl⟩ := List.mem_map.1 hcall
      exact ⟨rfl, rfl⟩
    · exact ih hcall

/-- **Only particles that are alive when a pass begins are called in it.** -/
theorem isLiveAt_of_mem_calls {began : Scene α} {call : Call α}
    (h : call ∈ began.calls registry registry.scratch phase dt) :
    Particle.isLiveAt began.particles call.index = true := by
  have hspares : began.SparesDead (began.runPhase registry registry.scratch phase dt) :=
    lasting_sparesDead.runPhase began phase
  obtain ⟨events, hevents, hspared⟩ := hspares.not_called
  rw [events_runPhase] at hevents
  obtain rfl := List.append_cancel_left hevents
  by_contra hdead
  exact hspared call.event (List.mem_map_of_mem h) call.index (Bool.eq_false_iff.2 hdead) rfl

/-- **Whom the calls of a pass find**, when the index of the pass was built from other particles
than the ones in view. -/
theorem findsAsIn_of_thins {began : Scene α} {g : BucketGrid α} {earlier later : Array (Particle α)}
    {call : Call α} (hcall : call ∈ began.calls registry registry.scratch phase dt) (hg : g.Tidy)
    (hbuild : g.build earlier = .ok began.grid) (hfew : earlier.size ≤ 2 ^ 32)
    (hthins : Thins earlier later)
    (hlive : ∀ index, Particle.isLiveAt later index = Particle.isLiveAt began.particles index) :
    call.view.FindsAsIn g.bounds later := by
  have hcalled := (hlive call.index).trans (isLiveAt_of_mem_calls hcall)
  obtain ⟨hsnapshot, hsearch⟩ := view_of_mem_callsFrom hcall
  obtain ⟨fresh, hfresh, hquery⟩ := hg.exists_query_eq hbuild hfew hthins hcalled
  have halive : call.view.isAlive = fun index => Particle.isLiveAt later index.toNat := by
    funext index
    rw [hlive, View.isAlive, View.other, hsnapshot, Particle.isLiveAt]
  -- assigning an index changes neither what is searched nor who is alive
  have hassigned (assigned : UInt32) (point : Vec2 α) (radius : α) :
      (call.view.assignIndex assigned).neighborsOf point radius =
        fresh.query point radius (some assigned) := by
    rw [View.neighborsOf_eq]
    change (call.view.search point radius (some assigned)).map (·.filter call.view.isAlive) = _
    rw [hsearch, halive]
    exact hquery point radius (some assigned)
  exact ⟨fresh, hfresh, hassigned call.view.index, hassigned⟩

/-- **In a pass that begins with a rebuilt index** the neighbours are those of the particles in
view. -/
theorem findsAsIn_of_rebuild {scene began : Scene α} (hscene : scene.grid.Tidy)
    (hbegan : scene.rebuild = .ok began) (hfew : scene.particles.size ≤ 2 ^ 32) {call : Call α}
    (hcall : call ∈ began.calls registry registry.scratch phase dt) :
    call.view.FindsAsIn scene.grid.bounds call.view.snapshot := by
  rw [(view_of_mem_callsFrom hcall).1, particles_of_rebuild hbegan]
  obtain ⟨grid, hbuild, hgrid⟩ := rebuild_eq_ok_iff.1 hbegan
  rw [← hgrid] at hcall
  exact findsAsIn_of_thins hcall hscene hbuild hfew (.refl _) fun _ => rfl

/-! ## The index through a step -/

/-- The index goes on over the same bounds. -/
structure SameBounds (earlier later : Scene α) : Prop where
  bounds_eq : later.grid.bounds = earlier.grid.bounds
  reachable : earlier.grid.Reachable → later.grid.Reachable

theorem SameBounds.of_grid_eq {earlier later : Scene α} (h : later.grid = earlier.grid) :
    SameBounds earlier later :=
  ⟨congrArg BucketGrid.bounds h, fun hreachable => h ▸ hreachable⟩

theorem SameBounds.of_rebuild {scene began : Scene α} (hbegan : scene.rebuild = .ok began) :
    SameBounds scene began := by
  obtain ⟨grid, hbuild, rfl⟩ := rebuild_eq_ok_iff.1 hbegan
  exact ⟨(BucketGrid.build_keeps hbuild).1, fun hscene => hscene.build hbuild⟩

theorem lasting_sameBounds : Lasting registry dt SameBounds where
  refl _ := .of_grid_eq rfl
  trans h h' := ⟨h'.bounds_eq.trans h.bounds_eq, fun hearlier => h'.reachable (h.reachable hearlier)⟩
  visit _ _ {_} _ _ _ _ _ := .of_grid_eq (Pass.grid_visit ..)
  integrateAt scene index := .of_grid_eq (scene.integrateAt_keeps index).2
  integrated _ := .of_grid_eq rfl
  rebuild hbegan := .of_rebuild hbegan

end Scene

/-! ## Putting particles back -/

/-- The later particles, each put back where it was earlier. -/
def putBack (earlier later : Array (Particle α)) : Array (Particle α) :=
  Array.zipWith (fun p q => { q with position := p.position }) earlier later

omit [Scalar α] in
theorem getElem?_putBack {earlier later : Array (Particle α)} {index : Nat} {p q : Particle α}
    (hp : earlier[index]? = some p) (hq : later[index]? = some q) :
    (putBack earlier later)[index]? = some { q with position := p.position } := by
  rw [putBack, Array.getElem?_zipWith, hp, hq]

omit [Scalar α] in
theorem size_putBack {earlier later : Array (Particle α)} (h : later.size = earlier.size) :
    (putBack earlier later).size = earlier.size := by
  rw [putBack, Array.size_zipWith, h, Nat.min_self]

/-- Whoever is put back is as alive as before. -/
theorem isLiveAt_putBack {earlier later : Array (Particle α)} (h : later.size = earlier.size)
    (index : Nat) :
    Particle.isLiveAt (putBack earlier later) index = Particle.isLiveAt later index := by
  by_cases hindex : index < earlier.size
  · have hp := Array.getElem?_eq_getElem hindex
    have hq : later[index]? = some later[index] := Array.getElem?_eq_getElem (h ▸ hindex)
    rw [Particle.isLiveAt, getElem?_putBack hp hq, Particle.isLiveAt, hq]
    rfl
  · rw [Particle.isLiveAt, Array.getElem?_eq_none (by rw [size_putBack h]; omega),
      Particle.isLiveAt, Array.getElem?_eq_none (by omega)]

namespace Scene.SparesDead

variable {earlier later : Scene α} (h : earlier.SparesDead later)

include h

/-- Who is alive later was alive before, and somewhere. -/
theorem exists_earlier {index : Nat} {p : Particle α} (hp : later.particles[index]? = some p)
    (halive : p.isAlive = true) :
    ∃ q, earlier.particles[index]? = some q ∧ q.isAlive = true := by
  refine Particle.exists_of_isLiveAt ?_
  by_contra hdead
  refine live_ne_dead hp halive (h.isLiveAt_eq_false (Bool.eq_false_iff.2 hdead)) rfl

/-- Put back where they were, the living are among those who lived earlier. -/
theorem thins_putBack : Thins earlier.particles (putBack earlier.particles later.particles) := by
  refine ⟨size_putBack h.size_eq, fun index p hp halive => ?_⟩
  have hlive : Particle.isLiveAt (putBack earlier.particles later.particles) index = true := by
    rw [Particle.isLiveAt, hp, Option.any_some, halive]
  rw [isLiveAt_putBack h.size_eq] at hlive
  obtain ⟨q, hq, hq'⟩ := Particle.exists_of_isLiveAt hlive
  obtain ⟨first, hfirst, hfirst'⟩ := h.exists_earlier hq hq'
  obtain rfl := Option.some.inj (hp.symm.trans (getElem?_putBack hfirst hq))
  exact ⟨first, hfirst, hfirst', rfl⟩

/-- Those who have not moved need not be put back. -/
theorem thins_of_unmoved
    (hunmoved : ∀ (index : Nat) (p q : Particle α), earlier.particles[index]? = some p →
      later.particles[index]? = some q → q.isAlive = true → q.position = p.position) :
    Thins earlier.particles later.particles := by
  refine ⟨h.size_eq, fun index q hq halive => ?_⟩
  obtain ⟨p, hp, halive'⟩ := h.exists_earlier hq halive
  exact ⟨p, hp, halive', (hunmoved index p q hp hq halive).symm⟩

end Scene.SparesDead

namespace Pipeline

variable {p : Pipeline α} {store : Store α} {registry : Registry α} {dt : α}

namespace Course

/-- The scene that a step begins with, on the index that has followed the camera. -/
def initial (course : Course p store registry dt) : Scene α :=
  p.start store registry.scratch course.grid

theorem reachable_initial (course : Course p store registry dt) (hp : p.grid.Reachable) :
    course.initial.grid.Reachable := by
  obtain ⟨changed, htrack⟩ := course.track_eq
  exact hp.track htrack

/-- A pass that begins with a rebuilt index finds the neighbours that are in view. -/
theorem findsAsIn_of_rebuild (course : Course p store registry dt) (hp : p.grid.Reachable)
    (hfew : store.size ≤ 2 ^ 32) {before began : Scene α}
    (hbefore : course.initial.SameBounds before ∧ course.initial.SparesDead before)
    (hbegan : before.rebuild = .ok began) {phase : Phase} {call : Call α}
    (hcall : call ∈ began.calls registry registry.scratch phase dt) :
    call.view.FindsAsIn course.grid.bounds call.view.snapshot := by
  obtain ⟨hbounds, hspared⟩ := hbefore
  have htidy := (hbounds.reachable (course.reachable_initial hp)).tidy
  have hsize : before.particles.size ≤ 2 ^ 32 := by
    rw [hspared.size_eq]
    exact hfew
  have hfinds := Scene.findsAsIn_of_rebuild htidy hbegan hsize hcall
  rw [hbounds.bounds_eq] at hfinds
  exact hfinds

/-- The apply pass goes on with the index of the state pass, so it finds the neighbours that are
alive by now. -/
theorem findsAsIn_apply (course : Course p store registry dt) (hp : p.grid.Reachable)
    (hfew : store.size ≤ 2 ^ 32) {later : Array (Particle α)}
    (hthins : Thins course.state.particles later)
    (hlive : ∀ index,
      Particle.isLiveAt later index = Particle.isLiveAt course.apply.particles index)
    {call : Call α} (hcall : call ∈ course.apply.calls registry registry.scratch .apply dt) :
    call.view.FindsAsIn course.grid.bounds later := by
  obtain ⟨grid, hbuild, hgrid⟩ := Scene.rebuild_eq_ok_iff.1 course.rebuild_start
  have hsame : course.apply.grid = grid := by
    rw [course.apply_eq, Scene.grid_runPhase, ← hgrid]
  rw [← hsame] at hbuild
  rw [course.particles_state] at hthins
  exact Scene.findsAsIn_of_thins hcall (course.reachable_initial hp).tidy hbuild hfew hthins hlive

end Course

/-- **Whom the modules find in a step.** In the state pass, in every pass of constraints and in the
correct pass, the neighbours of a particle are those that an index built afresh from the particles in
view would find, without the particle itself, or without whom the index of the call names once the
module has assigned another number to it. In the apply pass they are those that it would find if
everyone in view were put back where the state pass found them; when the state pass has moved no one
who is still alive, this makes no difference. -/
theorem neighbors_agree (p : Pipeline α) (store : Store α) (registry : Registry α) (dt : α)
    (hp : p.grid.Reachable) (hfew : store.size ≤ 2 ^ 32) {stepped : Stepped α}
    (h : p.step store registry dt = .ok stepped) :
    ∃ course : Course p store registry dt, course.state.particles = store.particles ∧
      (∀ call ∈ course.state.calls registry registry.scratch .state dt,
        call.view.FindsAsIn course.grid.bounds call.view.snapshot) ∧
      (∀ call ∈ course.apply.calls registry registry.scratch .apply dt,
        call.view.FindsAsIn course.grid.bounds
          (putBack course.state.particles call.view.snapshot)) ∧
      ((∀ (index : Nat) (p q : Particle α), course.state.particles[index]? = some p →
          course.apply.particles[index]? = some q → q.isAlive = true → q.position = p.position) →
        ∀ call ∈ course.apply.calls registry registry.scratch .apply dt,
          call.view.FindsAsIn course.grid.bounds call.view.snapshot) ∧
      (∀ began ∈ course.constrain,
        ∀ call ∈ began.calls registry registry.scratch .constrain dt,
          call.view.FindsAsIn course.grid.bounds call.view.snapshot) ∧
      (∀ call ∈ course.correct.calls registry registry.scratch .correct dt,
        call.view.FindsAsIn course.grid.bounds call.view.snapshot) := by
  obtain ⟨course, -⟩ := exists_course_finish h
  have hlasting : Scene.Lasting registry dt fun earlier later =>
      earlier.SameBounds later ∧ earlier.SparesDead later :=
    Scene.lasting_sameBounds.and Scene.lasting_sparesDead
  have hspared : course.state.SparesDead course.apply := by
    rw [course.apply_eq]
    exact Scene.lasting_sparesDead.runPhase course.state .state
  have hintegrated := hlasting.trans (hlasting.rebuild course.rebuild_start)
    (course.along_integrated hlasting).through
  have hrelaxed := hlasting.trans hintegrated (hlasting.along_relaxes course.relaxes).through
  refine ⟨course, course.particles_state, fun call hcall => ?_, fun call hcall => ?_,
    fun hunmoved call hcall => ?_, fun began hbegan call hcall => ?_, fun call hcall => ?_⟩
  · exact course.findsAsIn_of_rebuild hp hfew (hlasting.refl _) course.rebuild_start hcall
  · rw [(Scene.view_of_mem_callsFrom hcall).1]
    exact course.findsAsIn_apply hp hfew hspared.thins_putBack
      (isLiveAt_putBack hspared.size_eq) hcall
  · rw [(Scene.view_of_mem_callsFrom hcall).1]
    exact course.findsAsIn_apply hp hfew (hspared.thins_of_unmoved hunmoved) (fun _ => rfl) hcall
  · obtain ⟨before, hbefore, hrebuild⟩ := hlasting.exists_of_relaxes course.relaxes began hbegan
    exact course.findsAsIn_of_rebuild hp hfew (hlasting.trans hintegrated hbefore) hrebuild hcall
  · exact course.findsAsIn_of_rebuild hp hfew hrelaxed course.rebuild_relaxed hcall

/-! ## Pipelines and their indexes -/

/-- The pipelines that creating, setting and stepping lead to. -/
inductive Reachable : Pipeline α → Prop where
  /-- a new pipeline -/
  | create {settings : Settings α} {camera : Camera α} {p : Pipeline α}
      (h : create settings camera = .ok p) : Reachable p
  /-- a pipeline that looks through another camera -/
  | setCamera {p : Pipeline α} (hp : Reachable p) (camera : Camera α) : Reachable (p.setCamera camera)
  /-- a pipeline with another number of passes of constraints -/
  | setIterations {p : Pipeline α} (hp : Reachable p) (iterations : UInt32) :
      Reachable (p.setIterations iterations)
  /-- a pipeline after a step -/
  | step {p : Pipeline α} {store : Store α} {registry : Registry α} {dt : α} {stepped : Stepped α}
      (hp : Reachable p) (h : p.step store registry dt = .ok stepped) : Reachable stepped.pipeline

/-- **The index of every reachable pipeline is reachable.** -/
theorem Reachable.grid {p : Pipeline α} (hp : Reachable p) : p.grid.Reachable := by
  induction hp with
  | create h =>
    obtain ⟨grid, hgrid, h⟩ := bind_eq_ok_iff.1 h
    obtain rfl := Except.ok.inj h
    exact .ofCamera hgrid
  | setCamera _ camera ih => exact ih
  | setIterations _ iterations ih => exact ih
  | step _ h ih =>
    obtain ⟨course, rfl⟩ := exists_course_finish h
    have hstate := (Scene.SameBounds.of_rebuild course.rebuild_start).reachable
      (course.reachable_initial ih)
    exact (course.along_moments Scene.lasting_sameBounds).through.reachable hstate

/-! ## A particle that moves in the state pass -/

/-- A module that takes the second particle far away in the state pass. -/
def drifter : Module Single where
  name := "drifter"
  role := .force { state := true, apply := true }
  run := fun phase view =>
    if phase = .state ∧ view.index = 1 then .update fun p => { p with position := ⟨100.0, 0⟩ }
    else .done ()
  fragment := fun _ => .done none

/-- This module alone. -/
def drifting : Registry Single := { entries := #[⟨drifter, ⟨true, #[]⟩⟩] }

theorem exists_step_drifting : ∃ stepped, still.step couple drifting 0 = .ok stepped := by
  have hallocate : BucketGrid.allocate still.grid.bounds = .ok still.grid := rfl
  exact exists_step (.allocate hallocate) rfl ⟨by decide, by decide, by decide, by decide⟩

/-- In the state pass of this step everyone finds the neighbours that are in view. -/
theorem neighbors_agree_drifting :
    ∃ stepped, still.step couple drifting 0 = .ok stepped ∧
      ∃ course : Course still couple drifting 0,
        ∀ call ∈ course.state.calls drifting drifting.scratch .state 0,
          call.view.FindsAsIn course.grid.bounds call.view.snapshot := by
  have hallocate : BucketGrid.allocate still.grid.bounds = .ok still.grid := rfl
  obtain ⟨stepped, hstep⟩ := exists_step_drifting
  obtain ⟨course, -, hstate, -⟩ :=
    neighbors_agree still couple drifting 0 (.allocate hallocate) (by decide) hstep
  exact ⟨stepped, hstep, course, hstate⟩

/-- In the apply pass the first particle still finds the second one, which by then is out of its
reach and is seen to be. -/
theorem neighbors_lag_in_apply :
    ∃ stepped, still.step couple drifting 0 = .ok stepped ∧
      ∀ course : Course still couple drifting 0,
        ∃ call ∈ course.apply.calls drifting drifting.scratch .apply 0,
          ¬ call.view.FindsAsIn course.grid.bounds call.view.snapshot := by
  obtain ⟨stepped, hstep⟩ := exists_step_drifting
  refine ⟨stepped, hstep, fun course => ?_⟩
  obtain ⟨changed, htrack⟩ := course.track_eq
  have hgrid : still.grid = course.grid := (Prod.mk.inj (Except.ok.inj htrack)).2
  have hstart := course.rebuild_start
  rw [← hgrid] at hstart
  -- the first call of the apply pass, and what an index built anew would find for it
  have hfound : ((still.start couple drifting.scratch still.grid).rebuild >>= fun state =>
      match (state.runPhase drifting drifting.scratch .state 0).calls drifting drifting.scratch
        .apply 0 with
      | [] => .error .emptyRange
      | call :: _ => call.view.neighborsOf 0 10.0 >>= fun found =>
        (BucketGrid.ofBounds still.grid.bounds).build call.view.snapshot >>= fun fresh =>
          fresh.query 0 10.0 (some call.view.index) >>= fun anew => .ok (found, anew)) =
      .ok (#[1], #[]) := by decide +kernel
  obtain ⟨state, hstate, hfound⟩ := bind_eq_ok_iff.1 hfound
  obtain rfl := Except.ok.inj (hstate.symm.trans hstart)
  rw [← course.apply_eq] at hfound
  cases hcalls : course.apply.calls drifting drifting.scratch .apply 0 with
  | nil =>
    rw [hcalls] at hfound
    cases hfound
  | cons call rest =>
    refine ⟨call, List.mem_cons_self, fun ⟨fresh, hfresh, hagree, _⟩ => ?_⟩
    rw [hcalls] at hfound
    obtain ⟨found, hneighbors, hfound⟩ := bind_eq_ok_iff.1 hfound
    obtain ⟨built, hbuilt, hfound⟩ := bind_eq_ok_iff.1 hfound
    obtain ⟨anew, hanew, hfound⟩ := bind_eq_ok_iff.1 hfound
    rw [← hgrid, hbuilt] at hfresh
    obtain rfl := Except.ok.inj hfresh
    obtain rfl := Except.ok.inj ((hneighbors.symm.trans (hagree 0 10.0)).trans hanew)
    obtain ⟨hone, hnone⟩ := Prod.mk.inj (Except.ok.inj hfound)
    exact absurd (hone.symm.trans hnone) (by decide)

end Pipeline

end ParticleDynamics
