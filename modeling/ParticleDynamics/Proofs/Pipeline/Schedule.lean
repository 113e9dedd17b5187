import ParticleDynamics.Pipeline.Step
import ParticleDynamics.Proofs.Grid.Buckets
import ParticleDynamics.Proofs.Pipeline.Turns

/-!
# The schedule of a step

A step goes through its passes in a fixed order, and each pass begins with the scene that came of
the one before. The scenes with which the passes of a step began are its **course**
(`Pipeline.Course`).

From the course one can tell which calls the step made: those of its passes in order
(`Scene.calls`), with the integration once in between (`Pipeline.step_schedule`). Whatever the
modules do, a call shows them the other particles as they were when its pass began.
-/

namespace ParticleDynamics

variable {α : Type} [Scalar α]

namespace Scene

variable {registry : Registry α} {layout : ScratchLayout} {phase : Phase} {dt : α}

/-! ## The calls of a pass -/

/-- The calls of the given modules in a pass that began with the scene `began`: each module has its
turn on the scene that the ones before it left. -/
def callsFrom (began : Scene α) (layout : ScratchLayout) (phase : Phase) (dt : α) :
    List (Entry α) → Scene α → List (Call α)
  | [], _ => []
  | entry :: rest, current =>
    (began.passOf layout phase dt entry).calls current ++
      callsFrom began layout phase dt rest ((began.passOf layout phase dt entry).turn current)

/-- The calls of a pass that begins with a scene. -/
def calls (began : Scene α) (registry : Registry α) (layout : ScratchLayout) (phase : Phase)
    (dt : α) : List (Call α) :=
  began.callsFrom layout phase dt (registry.entries.toList.filter (takesPart phase)) began

/-- The journal grows by the calls of the modules that have had their turns. -/
theorem events_callsFrom (began : Scene α) (entries : List (Entry α)) (current : Scene α) :
    (entries.foldl (fun current entry => (began.passOf layout phase dt entry).turn current)
        current).journal.events.toList =
      current.journal.events.toList ++
        (began.callsFrom layout phase dt entries current).map Call.event := by
  induction entries generalizing current with
  | nil => exact (List.append_nil _).symm
  | cons entry rest ih =>
    rw [List.foldl_cons, ih, Pass.events_turn, callsFrom, List.map_append, List.append_assoc]

/-- **The journal grows by the calls of a pass**, in order. -/
theorem events_runPhase (began : Scene α) :
    (began.runPhase registry layout phase dt).journal.events.toList =
      began.journal.events.toList ++ (began.calls registry layout phase dt).map Call.event :=
  events_callsFrom began _ began

/-! ## Between the passes -/

/-- Rebuilding the neighbour index changes nothing else. -/
theorem rebuild_eq_ok_iff {scene began : Scene α} :
    scene.rebuild = .ok began ↔ ∃ grid, scene.grid.build scene.particles = .ok grid ∧
      { scene with grid := grid } = began := by
  rw [rebuild, bind_eq_ok_iff]
  simp only [pure, Except.pure, Except.ok.injEq]

theorem particles_of_rebuild {scene began : Scene α} (h : scene.rebuild = .ok began) :
    began.particles = scene.particles := by
  obtain ⟨grid, -, rfl⟩ := rebuild_eq_ok_iff.1 h
  rfl

/-- **All that integrating one place can do**: a live particle moves on and leaves its positions in
its row, and anywhere else nothing happens at all. -/
theorem integrateAt_cases (scene : Scene α) (dt : α) (index : Nat) :
    (Particle.isLiveAt scene.particles index = false ∧ scene.integrateAt dt index = scene) ∨
    ∃ p table, scene.particles[index]? = some p ∧ p.isAlive = true ∧
      scene.integrateAt dt index =
        { scene with
          particles := scene.particles.modify index fun _ => p.integrate dt
          table := table } ∧
      table = (scene.table.setPair index .preX .preY p.position).setPair index .postX .postY
        (p.integrate dt).position := by
  cases hp : scene.particles[index]? with
  | none => exact .inl ⟨by rw [Particle.isLiveAt, hp, Option.any_none], by simp only [integrateAt, hp]⟩
  | some p =>
    cases halive : p.isAlive with
    | false =>
      refine .inl ⟨by rw [Particle.isLiveAt, hp, Option.any_some, halive], ?_⟩
      simp only [integrateAt, hp, halive, Bool.false_eq_true, if_false]
    | true =>
      refine .inr ⟨p, _, rfl, halive, ?_, rfl⟩
      simp only [integrateAt, hp, halive, if_true]

/-- Integrating a particle leaves the journal and the neighbour index alone. -/
theorem integrateAt_keeps (scene : Scene α) (index : Nat) :
    (scene.integrateAt dt index).journal = scene.journal ∧
      (scene.integrateAt dt index).grid = scene.grid := by
  rcases scene.integrateAt_cases dt index with ⟨-, h⟩ | ⟨p, table, -, -, h, -⟩
  · rw [h]
    exact ⟨rfl, rfl⟩
  · rw [h]
    exact ⟨rfl, rfl⟩

theorem foldl_integrateAt_keeps (scene : Scene α) (indices : List Nat) :
    (indices.foldl (integrateAt dt) scene).journal = scene.journal ∧
      (indices.foldl (integrateAt dt) scene).grid = scene.grid := by
  induction indices generalizing scene with
  | nil => exact ⟨rfl, rfl⟩
  | cons index rest ih =>
    obtain ⟨hjournal, hgrid⟩ := ih (scene.integrateAt dt index)
    exact ⟨hjournal.trans (scene.integrateAt_keeps index).1,
      hgrid.trans (scene.integrateAt_keeps index).2⟩

/-- A pass leaves the neighbour index alone. -/
theorem grid_runPhase (began : Scene α) :
    (began.runPhase registry layout phase dt).grid = began.grid := by
  rw [runPhase]
  refine List.foldlRecOn (motive := fun (current : Scene α) => current.grid = began.grid) _ _ rfl ?_
  intro current ih entry _
  exact (Pass.grid_moment ..).trans ih

theorem grid_integrate (scene : Scene α) : (scene.integrate dt).grid = scene.grid :=
  (scene.foldl_integrateAt_keeps _).2

/-! ## The passes of constraints -/

/-- From a scene, passes of constraints that began with the listed scenes lead to the last one. -/
inductive Relaxes (registry : Registry α) (layout : ScratchLayout) (dt : α) :
    Scene α → List (Scene α) → Scene α → Prop
  /-- no pass at all -/
  | rest (scene : Scene α) : Relaxes registry layout dt scene [] scene
  /-- one pass, and the passes after it -/
  | pass {scene began last : Scene α} {later : List (Scene α)} (hbegan : scene.rebuild = .ok began)
      (hlater : Relaxes registry layout dt (began.runPhase registry layout .constrain dt) later
        last) :
      Relaxes registry layout dt scene (began :: later) last

theorem exists_relaxes {iterations : Nat} {scene last : Scene α}
    (h : scene.constrain registry layout dt iterations = .ok last) :
    ∃ course, course.length = iterations ∧ Relaxes registry layout dt scene course last := by
  induction iterations generalizing scene with
  | zero =>
    obtain rfl := Except.ok.inj h
    exact ⟨[], rfl, .rest scene⟩
  | succ iterations ih =>
    obtain ⟨began, hbegan, hrest⟩ := bind_eq_ok_iff.1 h
    obtain ⟨later, hlength, hlater⟩ := ih hrest
    exact ⟨began :: later, congrArg Nat.succ hlength, .pass hbegan hlater⟩

/-- A scene whose neighbour index can be rebuilt. -/
structure Ready (scene : Scene α) : Prop where
  tidy : scene.grid.Tidy
  proper : scene.grid.bounds.Proper

omit [Scalar α] in
theorem Ready.of_grid_eq {scene scene' : Scene α} (h : scene.Ready)
    (hgrid : scene'.grid = scene.grid) : scene'.Ready :=
  ⟨hgrid ▸ h.tidy, hgrid ▸ h.proper⟩

theorem Ready.runPhase {scene : Scene α} (h : scene.Ready) :
    (scene.runPhase registry layout phase dt).Ready :=
  h.of_grid_eq scene.grid_runPhase

theorem Ready.integrate {scene : Scene α} (h : scene.Ready) : (scene.integrate dt).Ready :=
  h.of_grid_eq scene.grid_integrate

theorem Ready.exists_rebuild {scene : Scene α} (h : scene.Ready) :
    ∃ began, scene.rebuild = .ok began ∧ began.Ready := by
  obtain ⟨grid, hbuild, htidy, hbounds⟩ := h.tidy.exists_build h.proper scene.particles
  exact ⟨_, rebuild_eq_ok_iff.2 ⟨grid, hbuild, rfl⟩, htidy, hbounds ▸ h.proper⟩

theorem Ready.exists_constrain {scene : Scene α} (h : scene.Ready) (iterations : Nat) :
    ∃ last, scene.constrain registry layout dt iterations = .ok last ∧ last.Ready := by
  induction iterations generalizing scene with
  | zero => exact ⟨scene, rfl, h⟩
  | succ iterations ih =>
    obtain ⟨began, hbegan, hready⟩ := h.exists_rebuild
    obtain ⟨last, hlast, hready'⟩ := ih hready.runPhase
    exact ⟨last, bind_eq_ok_iff.2 ⟨began, hbegan, hlast⟩, hready'⟩

/-- **All phases can be run** from a scene whose neighbour index can be rebuilt. Calls cannot break
off a step, since their failures are caught; only the index could. -/
theorem Ready.exists_runPhases {scene : Scene α} (h : scene.Ready) (iterations : Nat) :
    ∃ last, scene.runPhases registry layout iterations dt = .ok last := by
  obtain ⟨state, hstate, hready⟩ := h.exists_rebuild
  obtain ⟨relaxed, hrelaxed, hready'⟩ :=
    hready.runPhase.runPhase.integrate.exists_constrain iterations
  obtain ⟨correct, hcorrect, -⟩ := hready'.exists_rebuild
  exact ⟨_, bind_eq_ok_iff.2 ⟨state, hstate, bind_eq_ok_iff.2 ⟨relaxed, hrelaxed,
    bind_eq_ok_iff.2 ⟨correct, hcorrect, rfl⟩⟩⟩⟩

end Scene

namespace Pipeline

/-! ## The course of a step -/

/-- The scenes that a step goes through, and how each comes from the one before. -/
structure Course (p : Pipeline α) (store : Store α) (registry : Registry α) (dt : α) where
  /-- the neighbour index, which has followed the camera -/
  grid : BucketGrid α
  /-- the scene with which the state pass began -/
  state : Scene α
  /-- the scene with which the apply pass began -/
  apply : Scene α
  /-- the scene after the integration -/
  integrated : Scene α
  /-- the scenes with which the passes of constraints began -/
  constrain : List (Scene α)
  /-- the scene after the last of them -/
  relaxed : Scene α
  /-- the scene with which the correct pass began -/
  correct : Scene α
  track_eq : ∃ changed, p.grid.track p.camera = .ok (changed, grid)
  rebuild_start : (p.start store registry.scratch grid).rebuild = .ok state
  apply_eq : apply = state.runPhase registry registry.scratch .state dt
  integrated_eq : integrated = (apply.runPhase registry registry.scratch .apply dt).integrate dt
  length_constrain : constrain.length = p.iterations.toNat
  relaxes : Scene.Relaxes registry registry.scratch dt integrated constrain relaxed
  rebuild_relaxed : relaxed.rebuild = .ok correct

namespace Course

variable {p : Pipeline α} {store : Store α} {registry : Registry α} {dt : α}

/-- The calls of the passes before the integration. -/
def callsBefore (course : Course p store registry dt) : List (Call α) :=
  course.state.calls registry registry.scratch .state dt ++
    course.apply.calls registry registry.scratch .apply dt

/-- The calls of the passes after the integration. -/
def callsAfter (course : Course p store registry dt) : List (Call α) :=
  (course.constrain.flatMap fun began => began.calls registry registry.scratch .constrain dt) ++
    course.correct.calls registry registry.scratch .correct dt

/-- The scene that the correct pass leaves. -/
def last (course : Course p store registry dt) : Scene α :=
  course.correct.runPhase registry registry.scratch .correct dt

/-- The state pass begins with the particles of the store. -/
theorem particles_state (course : Course p store registry dt) :
    course.state.particles = store.particles :=
  Scene.particles_of_rebuild course.rebuild_start

end Course

variable {p : Pipeline α} {store : Store α} {registry : Registry α} {dt : α}

/-- What a step leaves behind when its correct pass leaves the given scene. -/
def finish (p : Pipeline α) (store : Store α) (last : Scene α) : Stepped α :=
  let survivors := last.particles.filter Particle.isAlive
  { pipeline := { p with
      grid := last.grid
      table := last.table.retainRows (last.particles.toList.map Particle.isAlive) }
    store := { store with particles := survivors }
    report := ⟨last.journal.faults, last.particles.size - survivors.size, survivors.size⟩
    journal := last.journal }

/-- **Every step that succeeds has a course**, and what it leaves behind is what the course leads
to. So whatever is proved of courses holds of steps, and it is in terms of courses that the rest of
the development speaks about them. -/
theorem exists_course_finish {stepped : Stepped α} (h : p.step store registry dt = .ok stepped) :
    ∃ course : Course p store registry dt, stepped = p.finish store course.last := by
  -- every operation before the removal of the dead has succeeded, one after the other
  obtain ⟨⟨changed, grid⟩, htrack, h⟩ := bind_eq_ok_iff.1 h
  obtain ⟨last, hlast, h⟩ := bind_eq_ok_iff.1 h
  obtain ⟨state, hstate, hlast⟩ := bind_eq_ok_iff.1 hlast
  obtain ⟨relaxed, hrelaxed, hlast⟩ := bind_eq_ok_iff.1 hlast
  obtain ⟨correct, hcorrect, hlast⟩ := bind_eq_ok_iff.1 hlast
  obtain ⟨constrain, hlength, hrelaxes⟩ := Scene.exists_relaxes hrelaxed
  obtain rfl := Except.ok.inj h
  obtain rfl := Except.ok.inj hlast
  exact ⟨⟨grid, state, _, _, constrain, relaxed, correct, ⟨changed, htrack⟩, hstate, rfl, rfl,
    hlength, hrelaxes, hcorrect⟩, rfl⟩

/-- A step succeeds when the index that has followed the camera has cells to offer. -/
theorem exists_step (hp : p.grid.Reachable) {changed : Bool} {grid : BucketGrid α}
    (htrack : p.grid.track p.camera = .ok (changed, grid)) (hproper : grid.bounds.Proper) :
    ∃ stepped, p.step store registry dt = .ok stepped := by
  have hready : (p.start store registry.scratch grid).Ready := ⟨(hp.track htrack).tidy, hproper⟩
  obtain ⟨last, hlast⟩ := hready.exists_runPhases p.iterations.toNat
  exact ⟨_, bind_eq_ok_iff.2 ⟨_, htrack, bind_eq_ok_iff.2 ⟨last, hlast, rfl⟩⟩⟩

/-- A module that kills the first particle in the state pass. -/
def reaper : Module Single where
  name := "reaper"
  role := .force { state := true }
  run := fun _ view => if view.index = 0 then .update Particle.kill else .done ()
  fragment := fun _ => .done none

/-- A module that does nothing in the state pass. -/
def watcher : Module Single where
  name := "watcher"
  role := .force { state := true }
  run := fun _ _ => .done ()
  fragment := fun _ => .done none

/-- The two of them, the one that kills first. -/
def deadly : Registry Single := { entries := #[⟨reaper, ⟨true, #[]⟩⟩, ⟨watcher, ⟨true, #[]⟩⟩] }

/-- Two particles in one place. -/
def couple : Store Single where
  particles := #[Birth.standard.withId 0, Birth.standard.withId 1]
  issued := 2

/-- A pipeline over a single cell, with two passes of constraints. -/
def still : Pipeline Single where
  grid := .ofBounds ⟨⟨0, 0⟩, 1, 1, 1⟩
  table := .create 0
  camera := .standard
  iterations := 2

end Pipeline

end ParticleDynamics
