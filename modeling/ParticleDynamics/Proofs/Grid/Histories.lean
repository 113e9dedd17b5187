import ParticleDynamics.Proofs.Grid.Rebuilding

/-!
# Histories of a bucket index

A history is an origin and a list of moves (`BucketGrid.Move`): an index is created over fixed
bounds or for a camera, and then it is built and follows cameras in any order. As long as its bounds
have a cell on each axis and fewer than `2^15` of them, no move fails, and the index stays in step
with its history (`BucketGrid.Follows`): it is tidy, and its bounds are those of its tracker.

So nothing of a history is left after a build but the bounds (`BucketGrid.run_build`).
-/

namespace ParticleDynamics

namespace BucketGrid

variable {α : Type} [Scalar α]

/-! ## Moves -/

/-- How an index is created. -/
inductive Origin (α : Type) where
  /-- over fixed bounds -/
  | fixed (bounds : Bounds α)
  /-- for a camera that it follows -/
  | tracked (camera : Camera α) (cellSize padding : α) (maxCells : UInt32)

/-- What can be done with an index. -/
inductive Move (α : Type) where
  /-- index some particles -/
  | build (particles : Array (Particle α))
  /-- follow the camera -/
  | follow (camera : Camera α)

/-- The camera that a move follows, if it follows one. -/
def Move.camera : Move α → Option (Camera α)
  | build _ => none
  | follow camera => some camera

/-- The cameras that some moves follow. -/
def Move.cameras (moves : List (Move α)) : List (Camera α) := moves.filterMap Move.camera

omit [Scalar α] in
theorem Move.cameras_build (moves : List (Move α)) (particles : Array (Particle α)) :
    cameras (moves ++ [build particles]) = cameras moves := by
  rw [cameras, List.filterMap_append]
  exact List.append_nil _

omit [Scalar α] in
theorem Move.cameras_follow (moves : List (Move α)) (camera : Camera α) :
    cameras (moves ++ [follow camera]) = cameras moves ++ [camera] := by
  rw [cameras, List.filterMap_append]
  rfl

/-- The index after a move. -/
def perform (g : BucketGrid α) : Move α → Except Breach (BucketGrid α)
  | .build particles => g.build particles
  | .follow camera => do
    let (_, followed) ← g.track camera
    return followed

/-- The index after some moves. -/
def performAll (g : BucketGrid α) : List (Move α) → Except Breach (BucketGrid α)
  | [] => .ok g
  | move :: rest => do performAll (← g.perform move) rest

theorem performAll_concat (g : BucketGrid α) (moves : List (Move α)) (last : Move α) :
    g.performAll (moves ++ [last]) = g.performAll moves >>= fun before => before.perform last := by
  induction moves generalizing g with
  | nil =>
    change (g.perform last >>= Except.ok) = g.perform last
    cases g.perform last <;> rfl
  | cons move rest ih =>
    rw [List.cons_append, performAll, performAll]
    cases g.perform move with
    | error breach => rfl
    | ok next => exact ih next

namespace Origin

/-- The new index. -/
def create : Origin α → Except Breach (BucketGrid α)
  | fixed bounds => allocate bounds
  | tracked camera cellSize padding maxCells => ofCamera camera cellSize padding maxCells

/-- The index after a history. -/
def run (origin : Origin α) (moves : List (Move α)) : Except Breach (BucketGrid α) := do
  (← origin.create).performAll moves

theorem run_concat (origin : Origin α) (moves : List (Move α)) (last : Move α) :
    origin.run (moves ++ [last]) = origin.run moves >>= fun before => before.perform last := by
  rw [run, run]
  cases origin.create with
  | error breach => rfl
  | ok start => exact start.performAll_concat moves last

/-- The tracker of the index after some moves, if it has one. -/
def trackerAfter : Origin α → List (Move α) → Option (Tracker α)
  | fixed _, _ => none
  | tracked camera cellSize padding maxCells, moves =>
    some ((Tracker.create camera cellSize padding maxCells).followAll (Move.cameras moves))

/-- The bounds of the index after some moves: fixed ones, or those of its tracker. -/
def boundsAfter : Origin α → List (Move α) → Bounds α
  | fixed bounds, _ => bounds
  | tracked camera cellSize padding maxCells, moves =>
    ((Tracker.create camera cellSize padding maxCells).followAll (Move.cameras moves)).bounds

theorem trackerAfter_build (origin : Origin α) (moves : List (Move α))
    (particles : Array (Particle α)) :
    origin.trackerAfter (moves ++ [.build particles]) = origin.trackerAfter moves := by
  cases origin with
  | fixed bounds => rfl
  | tracked camera cellSize padding maxCells =>
    rw [trackerAfter, trackerAfter, Move.cameras_build]

theorem boundsAfter_build (origin : Origin α) (moves : List (Move α))
    (particles : Array (Particle α)) :
    origin.boundsAfter (moves ++ [.build particles]) = origin.boundsAfter moves := by
  cases origin with
  | fixed bounds => rfl
  | tracked camera cellSize padding maxCells =>
    rw [boundsAfter, boundsAfter, Move.cameras_build]

end Origin

/-! ## In step with a history -/

/-- A consistent index that has the bounds and the tracker of its history. -/
structure InStep (g : BucketGrid α) (origin : Origin α) (moves : List (Move α)) : Prop where
  consistent : g.Consistent
  bounds_eq : g.bounds = origin.boundsAfter moves
  tracker_eq : g.tracker = origin.trackerAfter moves

section

variable {origin : Origin α} {moves : List (Move α)} {most : Nat} (hmost : most < 2 ^ 15)

include hmost

/-- An index can be created if there is room for its first bounds. -/
theorem Origin.exists_create (hsized : (origin.boundsAfter []).Sized most) :
    ∃ g, origin.create = .ok g ∧ g.InStep origin [] := by
  have hroom := hsized.allocate_eq hmost
  cases origin with
  | fixed bounds => exact ⟨_, hroom, consistent_of_replicate rfl rfl, rfl, rfl⟩
  | tracked camera cellSize padding maxCells =>
    exact ⟨_, bind_eq_ok_iff.2 ⟨_, hroom, rfl⟩, consistent_of_replicate rfl rfl, rfl, rfl⟩

/-- An index can follow a camera if there is room for the bounds that come of it. -/
theorem exists_track {g : BucketGrid α} {tracker : Tracker α} {camera : Camera α}
    (htracker : g.tracker = some tracker) (hbounds : g.bounds = tracker.bounds)
    (hsized : (tracker.track camera).2.bounds.Sized most) :
    ∃ g', g.track camera = .ok ((tracker.track camera).1, g') ∧
      g'.tracker = some (tracker.track camera).2 ∧ g'.bounds = (tracker.track camera).2.bounds := by
  rw [track, htracker]
  dsimp only
  rcases tracker.track_cases camera with ⟨-, htrack⟩ | ⟨-, ⟨-, htrack⟩ | ⟨-, htrack⟩⟩ <;>
    rw [htrack] at hsized ⊢
  · exact ⟨_, rfl, rfl, hbounds⟩
  · exact ⟨_, rfl, rfl, hbounds⟩
  · exact ⟨_, bind_eq_ok_iff.2 ⟨_, hsized.allocate_eq hmost, rfl⟩, rfl, rfl⟩

/-- **One move.** Building needs a cell for every position, and following needs room for the new
buckets; both come from the bounds being small. -/
theorem InStep.perform {g : BucketGrid α} (hg : g.InStep origin moves) {move : Move α}
    (hsized : (origin.boundsAfter (moves ++ [move])).Sized most) :
    ∃ g', g.perform move = .ok g' ∧ g'.InStep origin (moves ++ [move]) := by
  obtain ⟨hconsistent, hbounds, htracker⟩ := hg
  cases move with
  | build particles =>
    rw [origin.boundsAfter_build, ← hbounds] at hsized
    obtain ⟨g', hbuild, -, hbounds'⟩ :=
      hconsistent.tidy.exists_build (hsized.proper (by omega)) particles
    refine ⟨g', hbuild, hconsistent.build hbuild, ?_, ?_⟩
    · rw [hbounds', hbounds, origin.boundsAfter_build]
    · rw [(build_keeps hbuild).2.1, htracker, origin.trackerAfter_build]
  | follow camera =>
    cases origin with
    | fixed bounds =>
      refine ⟨g, ?_, hconsistent, hbounds, htracker⟩
      rw [BucketGrid.perform, track, show g.tracker = none from htracker]
      rfl
    | tracked first cellSize padding maxCells =>
      rw [Origin.boundsAfter, Move.cameras_follow, Tracker.followAll_concat] at hsized
      obtain ⟨g', htrack, htracker', hbounds'⟩ := exists_track hmost htracker hbounds hsized
      refine ⟨g', bind_eq_ok_iff.2 ⟨_, htrack, rfl⟩, hconsistent.track htrack, ?_, ?_⟩
      · rw [hbounds', Origin.boundsAfter, Move.cameras_follow, Tracker.followAll_concat]
      · rw [htracker', Origin.trackerAfter, Move.cameras_follow, Tracker.followAll_concat]

/-- **A whole history.** The bounds of each part of the history have to be small, and not only those
at its end. -/
theorem InStep.performAll {g : BucketGrid α} (hg : g.InStep origin moves) {more : List (Move α)}
    (hsized : ∀ done, done <+: more → (origin.boundsAfter (moves ++ done)).Sized most) :
    ∃ g', g.performAll more = .ok g' ∧ g'.InStep origin (moves ++ more) := by
  induction more generalizing g moves with
  | nil => exact ⟨g, rfl, by rwa [List.append_nil]⟩
  | cons move rest ih =>
    obtain ⟨next, hnext, hstep⟩ := hg.perform hmost (hsized [move] (List.prefix_append [move] rest))
    have hrest (done : List (Move α)) (hdone : done <+: rest) :
        (origin.boundsAfter (moves ++ [move] ++ done)).Sized most := by
      rw [List.append_assoc]
      exact hsized (move :: done) (List.cons_prefix_cons.2 ⟨rfl, hdone⟩)
    obtain ⟨g', hall, hstep'⟩ := ih hstep hrest
    exact ⟨g', bind_eq_ok_iff.2 ⟨next, hnext, hall⟩, by rwa [List.append_assoc] at hstep'⟩

/-- **No history fails as long as there is room for its bounds.** -/
theorem Origin.exists_run
    (hsized : ∀ done, done <+: moves → (origin.boundsAfter done).Sized most) :
    ∃ g, origin.run moves = .ok g ∧ g.InStep origin moves := by
  obtain ⟨start, hcreate, hstart⟩ := exists_create hmost (hsized [] (List.nil_prefix ..))
  obtain ⟨g, hall, hstep⟩ := hstart.performAll hmost hsized
  exact ⟨g, bind_eq_ok_iff.2 ⟨start, hcreate, hall⟩, hstep⟩

end

/-! ## After a build -/

/-- Every live index lies in one bucket, that of its own cell, in ascending order, and nothing else
lies in a bucket. -/
structure Sorts (g : BucketGrid α) (particles : Array (Particle α)) : Prop where
  size_eq : g.buckets.size = g.bounds.cellCount
  /-- what a bucket holds -/
  bucket : ∀ place < g.buckets.size, ∃ indices : List Nat,
    g.buckets[place]? = some (indices.map Nat.toUInt32).toArray ∧ indices.Pairwise (· < ·) ∧
      ∀ index, index ∈ indices ↔ ∃ p cell, particles[index]? = some p ∧ p.isAlive = true ∧
        g.bounds.cellOf p.position = .ok cell ∧ g.bounds.flatIndex cell = place
  /-- where a live index lies -/
  placed : ∀ p ∈ particles, p.isAlive = true → ∃ cell, g.bounds.cellOf p.position = .ok cell ∧
    g.bounds.flatIndex cell < g.buckets.size

theorem sorts_of_holds {g : BucketGrid α} {particles : Array (Particle α)} (htidy : g.Tidy)
    (hproper : g.bounds.Proper) (hholds : g.Holds particles particles.size) :
    g.Sorts particles := by
  refine ⟨htidy.size_eq, fun place hplace => ?_, fun p _ _ => ?_⟩
  · rw [htidy.size_eq] at hplace
    refine ⟨_, hholds hplace, List.pairwise_lt_range.filter _, fun index => ?_⟩
    rw [Bounds.mem_occupants_iff, Option.map_eq_some_iff]
    constructor
    · rintro ⟨-, cell, hcell, hflat⟩
      obtain ⟨p, hp, halive, hnearest⟩ := (Bounds.cellAt_eq_some_iff hproper).1 hcell
      exact ⟨p, cell, hp, halive, by rw [Bounds.cellOf_eq hproper, hnearest], hflat⟩
    · rintro ⟨p, cell, hp, halive, hcell, hflat⟩
      rw [Bounds.cellOf_eq hproper] at hcell
      exact ⟨(Array.getElem?_eq_some_iff.1 hp).1, cell,
        (Bounds.cellAt_eq_some_iff hproper).2 ⟨p, hp, halive, Except.ok.inj hcell⟩, hflat⟩
  · rw [htidy.size_eq]
    exact ⟨_, Bounds.cellOf_eq hproper _, Bounds.flatIndex_lt (Bounds.has_nearest hproper _)⟩

/-- **An index has no memory.** However it was created, built and moved with a camera before, as
long as its bounds had a cell on each axis and fewer than `2^15` of them, a build succeeds and

* leaves the buckets and positions that the same build leaves in a new index over the bounds that
  the index has by then, so that every query has the same outcome in both;
* puts every live index into the bucket of its own cell, in ascending order, and nothing else into
  any bucket;
* counts as many indices as there are live particles. -/
theorem run_build (origin : Origin α) (moves : List (Move α)) (particles : Array (Particle α))
    (hsized : ∀ done, done <+: moves → (origin.boundsAfter done).Sized (2 ^ 15 - 1)) :
    ∃ built fresh, origin.run (moves ++ [.build particles]) = .ok built ∧
      (Origin.fixed (origin.boundsAfter moves)).run [.build particles] = .ok fresh ∧
      built.bounds = origin.boundsAfter moves ∧
      (built.buckets = fresh.buckets ∧ built.positions = fresh.positions ∧
        ∀ (point : Vec2 α) (radius : α) (exclude : Option UInt32),
          built.query point radius exclude = fresh.query point radius exclude) ∧
      built.Sorts particles ∧
      built.indexedCount = particles.countP Particle.isAlive := by
  have hmost : 2 ^ 15 - 1 < 2 ^ 15 := by decide
  obtain ⟨g, hrun, ⟨htidy, -, -⟩, hbounds, -⟩ := origin.exists_run hmost hsized
  have hlast := hsized moves (List.prefix_refl moves)
  have hproper : g.bounds.Proper := hbounds ▸ hlast.proper (by decide)
  obtain ⟨built, hbuild, hholds⟩ := htidy.exists_holds hproper particles
  obtain ⟨fresh, hfresh, hsame⟩ : ∃ fresh, (ofBounds g.bounds).build particles = .ok fresh ∧
      built = fresh.withTracker g.tracker := by
    rw [htidy.build_eq] at hbuild
    cases hfresh : (ofBounds g.bounds).build particles with
    | error breach => rw [hfresh] at hbuild; cases hbuild
    | ok fresh => rw [hfresh] at hbuild; exact ⟨fresh, rfl, (Except.ok.inj hbuild).symm⟩
  have hkept : built.bounds = g.bounds := (build_keeps hbuild).1
  refine ⟨built, fresh, ?_, ?_, hkept.trans hbounds, ⟨?_, ?_, fun point radius exclude => ?_⟩,
    sorts_of_holds (htidy.build hbuild) (hkept ▸ hproper) hholds, htidy.indexedCount_build hbuild⟩
  · rw [origin.run_concat, hrun]
    exact hbuild
  · rw [← hbounds] at hlast ⊢
    exact bind_eq_ok_iff.2 ⟨_, hlast.allocate_eq hmost, bind_eq_ok_iff.2 ⟨fresh, hfresh, rfl⟩⟩
  · rw [hsame]; rfl
  · rw [hsame]; rfl
  · rw [hsame, query_withTracker]

/-- Two particles, of which the second one is dead. -/
def couple : Array (Particle Single) :=
  #[Birth.standard.withId 0,
    Birth.withId { Birth.standard with position := ⟨100.0, 50.0⟩, mass := 0 } 1]

/-- After a build, a camera that moves on, and another build only the live particle is held, in a
grid that starts further to the right. -/
theorem run_build_couple :
    ∃ built fresh, (Origin.tracked (Tracker.panned 0) 40.0 0.5 256).run
        [.build couple, .follow (Tracker.panned 70.0), .build couple] = .ok built ∧
      (Origin.fixed ((Origin.tracked (Tracker.panned 0) 40.0 0.5 256).boundsAfter
        [.build couple, .follow (Tracker.panned 70.0)])).run [.build couple] = .ok fresh ∧
      built.buckets = fresh.buckets ∧ built.indexedCount = 1 := by
  have hsized : ∀ done ∈ List.inits [Move.build couple, .follow (Tracker.panned 70.0)],
      ((Origin.tracked (Tracker.panned 0) 40.0 0.5 256).boundsAfter done).Sized (2 ^ 15 - 1) := by
    decide +kernel
  obtain ⟨built, fresh, hbuilt, hfresh, -, ⟨hbuckets, -⟩, -, hcount⟩ :=
    run_build (.tracked (Tracker.panned 0) 40.0 0.5 256)
      [.build couple, .follow (Tracker.panned 70.0)] couple
      fun done hdone => hsized done ((List.mem_inits ..).2 hdone)
  exact ⟨built, fresh, hbuilt, hfresh, hbuckets, hcount.trans (by decide +kernel)⟩

end BucketGrid

end ParticleDynamics
