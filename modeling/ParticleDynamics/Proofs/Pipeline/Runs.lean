import ParticleDynamics.Proofs.Grid.Tracking
import ParticleDynamics.Proofs.Pipeline.Neighbors

/-!
# Runs

A run is a sequence of steps, each of them with its own duration, its own camera and its own number
of passes of constraints. What a run comes to is said in two ways: by a function that plays its
frames one after the other (`Pipeline.play`), and by the states that steps lead to
(`Pipeline.Stepping`). Every step of a played run begins in such a state
(`Pipeline.exists_of_mem_play`), and a run in which no state is stuck can be played to its end
(`Pipeline.exists_play`).

With fewer than `2^15` cells allowed on an axis no state is stuck, whatever the cameras are
(`Pipeline.Within.exists_advance`).
-/

namespace ParticleDynamics

/-- What a pipeline is set to for one step. -/
structure Frame (α : Type) where
  /-- the camera that the neighbour index follows -/
  camera : Camera α
  /-- the number of passes of constraints -/
  iterations : UInt32
  /-- the duration of the step -/
  dt : α

variable {α : Type} [Scalar α]

/-- **An index stays within its cap** through a step. -/
theorem Scene.lasting_limited {registry : Registry α} {dt : α} (maxCells : UInt32) :
    Lasting registry dt fun (earlier later : Scene α) =>
      earlier.grid.Limited maxCells → later.grid.Limited maxCells where
  refl _ h := h
  trans h h' hearlier := h' (h hearlier)
  visit began phase {entry} _ failed scene index _ h := by
    rw [Pass.grid_visit]
    exact h
  integrateAt scene index h := by
    rw [(scene.integrateAt_keeps index).2]
    exact h
  integrated _ h := h
  rebuild {scene began} hbegan h := by
    obtain ⟨grid, hbuild, rfl⟩ := rebuild_eq_ok_iff.1 hbegan
    obtain ⟨hbounds, htracker, -⟩ := BucketGrid.build_keeps hbuild
    exact h.of_eq hbounds htracker

namespace Pipeline

/-- The pipeline set to a frame. -/
def framed (p : Pipeline α) (frame : Frame α) : Pipeline α :=
  (p.setCamera frame.camera).setIterations frame.iterations

/-- The step with a frame. -/
def advance (p : Pipeline α) (store : Store α) (registry : Registry α) (frame : Frame α) :
    Except Breach (Stepped α) :=
  (p.framed frame).step store registry frame.dt

/-- What the steps with the given frames leave behind, one after the other. -/
def play (registry : Registry α) :
    List (Frame α) → Pipeline α → Store α → Except Breach (List (Stepped α))
  | [], _, _ => .ok []
  | frame :: rest, p, store => do
    let stepped ← p.advance store registry frame
    let later ← play registry rest stepped.pipeline stepped.store
    return stepped :: later

/-- A new pipeline has a table without slots. -/
theorem table_of_create {settings : Settings α} {camera : Camera α} {p : Pipeline α}
    (h : create settings camera = .ok p) : p.table = .create 0 := by
  unfold create at h
  cases hgrid : BucketGrid.ofCamera camera settings.cellSize settings.boundsPadding
      settings.hostGridCells with
  | error breach =>
    rw [hgrid] at h
    cases h
  | ok grid =>
    rw [hgrid] at h
    cases h
    rfl

/-! ## What steps lead to -/

/-- The pipelines and stores that steps lead to from given ones. -/
inductive Stepping (registry : Registry α) (p : Pipeline α) (store : Store α) :
    Pipeline α → Store α → Prop
  /-- no step at all -/
  | start : Stepping registry p store p store
  /-- one step more -/
  | step {current : Pipeline α} {left : Store α} {frame : Frame α} {stepped : Stepped α}
      (h : Stepping registry p store current left)
      (hstep : current.advance left registry frame = .ok stepped) :
      Stepping registry p store stepped.pipeline stepped.store

variable {registry : Registry α} {p : Pipeline α} {store : Store α}

/-- Steps after a first step. -/
theorem Stepping.head {frame : Frame α} {first : Stepped α} {current : Pipeline α} {left : Store α}
    (hfirst : p.advance store registry frame = .ok first)
    (h : Stepping registry first.pipeline first.store current left) :
    Stepping registry p store current left := by
  induction h with
  | start => exact .step .start hfirst
  | step _ hstep ih => exact .step ih hstep

/-- **Every step of a played run** begins with what the steps before it lead to. -/
theorem exists_of_mem_play {frames : List (Frame α)} {steps : List (Stepped α)}
    (h : play registry frames p store = .ok steps) :
    ∀ stepped ∈ steps, ∃ current left, ∃ frame ∈ frames,
      Stepping registry p store current left ∧
        current.advance left registry frame = .ok stepped := by
  induction frames generalizing p store steps with
  | nil =>
    obtain rfl := Except.ok.inj h
    exact List.forall_mem_nil _
  | cons frame rest ih =>
    obtain ⟨first, hfirst, h⟩ := bind_eq_ok_iff.1 h
    obtain ⟨later, hlater, h⟩ := bind_eq_ok_iff.1 h
    obtain rfl := Except.ok.inj h
    refine List.forall_mem_cons.2 ⟨⟨p, store, frame, List.mem_cons_self, .start, hfirst⟩, ?_⟩
    intro stepped hmem
    obtain ⟨current, left, other, hother, hstepping, hstep⟩ := ih hlater stepped hmem
    exact ⟨current, left, other, List.mem_cons_of_mem _ hother, hstepping.head hfirst, hstep⟩

/-- **A run in which no state is stuck can be played to its end.** -/
theorem exists_play (frames : List (Frame α))
    (h : ∀ current left frame, Stepping registry p store current left →
      ∃ stepped, current.advance left registry frame = .ok stepped) :
    ∃ steps, play registry frames p store = .ok steps ∧ steps.length = frames.length := by
  induction frames generalizing p store with
  | nil => exact ⟨[], rfl, rfl⟩
  | cons frame rest ih =>
    obtain ⟨first, hfirst⟩ := h p store frame .start
    obtain ⟨later, hlater, hlength⟩ := ih fun current left frame hstepping =>
      h current left frame (hstepping.head hfirst)
    exact ⟨first :: later, bind_eq_ok_iff.2 ⟨first, hfirst, bind_eq_ok_iff.2 ⟨later, hlater, rfl⟩⟩,
      congrArg Nat.succ hlength⟩

/-! ## Pipelines that are never stuck -/

/-- A pipeline that creating, setting and stepping lead to, with an index within its cap. -/
structure Within (p : Pipeline α) (maxCells : UInt32) : Prop where
  reachable : p.Reachable
  limited : p.grid.Limited maxCells

variable {maxCells : UInt32} (hcap : maxCells.toNat < 2 ^ 15)

include hcap

/-- **A pipeline can be created**, whatever bits the camera and the settings have. -/
theorem exists_create {settings : Settings Single} (hsettings : settings.hostGridCells = maxCells)
    (camera : Camera Single) : ∃ p, create settings camera = .ok p ∧ p.Within maxCells := by
  subst hsettings
  obtain ⟨grid, hgrid, hlimited⟩ := BucketGrid.exists_ofCamera hcap camera settings.cellSize
    settings.boundsPadding
  have hcreate : create settings camera = .ok _ := bind_eq_ok_iff.2 ⟨grid, hgrid, rfl⟩
  exact ⟨_, hcreate, .create hcreate, hlimited⟩

variable {p : Pipeline Single} {store : Store Single} {registry : Registry Single}
  {frame : Frame Single}

/-- **A step succeeds**, whatever the frame is. -/
theorem Within.exists_advance (h : p.Within maxCells) (store : Store Single)
    (registry : Registry Single) (frame : Frame Single) :
    ∃ stepped, p.advance store registry frame = .ok stepped := by
  obtain ⟨changed, grid, htrack, hlimited⟩ := h.limited.exists_track hcap frame.camera
  exact exists_step (p := p.framed frame) h.reachable.grid htrack (hlimited.proper hcap)

/-- A step leaves the index within its cap. -/
theorem Within.advance {stepped : Stepped Single} (h : p.Within maxCells)
    (hstep : p.advance store registry frame = .ok stepped) : stepped.pipeline.Within maxCells := by
  refine ⟨.step ((h.reachable.setCamera frame.camera).setIterations frame.iterations) hstep, ?_⟩
  obtain ⟨course, rfl⟩ := exists_course_finish hstep
  obtain ⟨changed, grid, htrack, hlimited⟩ := h.limited.exists_track hcap frame.camera
  obtain ⟨changed', htrack'⟩ := course.track_eq
  have hgrid : course.grid = grid :=
    (Prod.mk.inj (Except.ok.inj (htrack'.symm.trans htrack))).2
  have hlasting : Scene.Lasting registry frame.dt fun (earlier later : Scene Single) =>
      earlier.grid.Limited maxCells → later.grid.Limited maxCells := Scene.lasting_limited maxCells
  rw [← hgrid] at hlimited
  exact (course.along_moments hlasting).through (hlasting.rebuild course.rebuild_start hlimited)

/-- **What steps lead to is never stuck.** -/
theorem Stepping.within {current : Pipeline Single} {left : Store Single}
    (h : Stepping registry p store current left) (hp : p.Within maxCells) :
    current.Within maxCells := by
  induction h with
  | start => exact hp
  | step _ hstep ih => exact ih.advance hcap hstep

end Pipeline

end ParticleDynamics
