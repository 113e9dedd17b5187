import ParticleDynamics.Proofs.Grid.Checked
import ParticleDynamics.Proofs.Grid.Histories

/-!
# Nothing fails in an index that follows a camera

Bounds that are derived from a camera have a cell on each axis, and no more cells than the cap
allows, whatever bits the camera and the settings have. Everything else follows from this, whatever
bits positions, points and radii have: every position has a cell and every search a window, both
computed in signed words (`Bounds.exists_checkedWindow`), the buckets of all those cells exist
(`BucketGrid.exists_queryOnto`), and so do their counters and slots.

The integer range in which capping limits the number of cells is never empty either
(`Bounds.checkedCapped_eq`).
-/

namespace ParticleDynamics

/-! ## Bounds -/

namespace Bounds

section

variable {α : Type} [Scalar α]

/-- Capping with the limits of integers as a machine has them, which break on an empty range. -/
def checkedCapped (b : Bounds α) (maxCells : UInt32) : Except Breach (Bounds α) :=
  let most := max maxCells 1
  if b.widest ≤ most then .ok b
  else do
    let scale : α := Scalar.ofWord b.widest / Scalar.ofWord most
    let cellSize := b.cellSize * scale
    let extent : Vec2 α := (⟨Scalar.ofWord b.cols, Scalar.ofWord b.rows⟩ : Vec2 α) * b.cellSize
    let cols ← limit (Scalar.toWord (Scalar.ceil (extent.x / cellSize))).toNat 1 most.toNat
    let rows ← limit (Scalar.toWord (Scalar.ceil (extent.y / cellSize))).toNat 1 most.toNat
    return {
      origin := b.origin
      cellSize := cellSize
      cols := .ofNat cols.toNat
      rows := .ofNat rows.toNat }

/-- Limiting a number of cells to a range from one on. -/
theorem limit_eq_fitted (extent cellSize : α) {most : UInt32} (hmost : 1 ≤ most.toNat) :
    limit (Scalar.toWord (Scalar.ceil (extent / cellSize))).toNat 1 most.toNat =
      .ok ((fitted extent cellSize most).toNat : Int) := by
  rw [limit_eq (by omega), toNat_fitted]
  congr 1
  omega

/-- **Capping never meets an empty range.** The upper limit is at least one whatever the cap is,
because the cap is raised to one first. -/
theorem checkedCapped_eq (b : Bounds α) (maxCells : UInt32) :
    b.checkedCapped maxCells = .ok (b.capped maxCells) := by
  have hmost : 1 ≤ (max maxCells 1).toNat := by
    rw [toNat_max]
    exact Nat.le_max_right ..
  rw [checkedCapped, capped]
  split
  next => rfl
  next =>
    refine bind_eq_ok_iff.2 ⟨_, limit_eq_fitted _ _ hmost, bind_eq_ok_iff.2
      ⟨_, limit_eq_fitted _ _ hmost, ?_⟩⟩
    dsimp only [pure, Except.pure]
    rw [Int.toNat_natCast, Int.toNat_natCast, UInt32.ofNat_toNat, UInt32.ofNat_toNat]

/-- The window of a search with all sums and differences in signed words. -/
def checkedWindow (b : Bounds α) (point : Vec2 α) (radius : α) : Except Breach Window := do
  let rings : Int := Int.ofNat (← b.ringsFor radius)
  let center ← b.cellOf point
  let left ← fitSigned "subtract" (center.x - rings)
  let lower ← fitSigned "subtract" (center.y - rings)
  let right ← fitSigned "add" (center.x + rings)
  let upper ← fitSigned "add" (center.y + rings)
  return {
    lo := ⟨max left 0, max lower 0⟩
    hi := ⟨min right (← lastCell b.cols), min upper (← lastCell b.rows)⟩ }

end

/-- **Every search has a window of cells of the grid.** The radius may be infinite or no number at
all, and the number of rings is still at most the longer axis. -/
theorem exists_checkedWindow {b : Bounds Single} (h : b.Proper) (hcols : b.cols.toNat < 2 ^ 15)
    (hrows : b.rows.toNat < 2 ^ 15) (point : Vec2 Single) (radius : Single) :
    ∃ window, b.checkedWindow point radius = .ok window ∧ b.window point radius = .ok window ∧
      ∀ cell ∈ window.cells, b.Has cell := by
  obtain ⟨rings, hrings, hfew⟩ := exists_ringsFor hcols hrows radius
  obtain ⟨hx, hx', hy, hy'⟩ := b.has_nearest h (b.freeCell point)
  refine ⟨_, ?_, window_eq h hrings (by omega) (by omega),
    fun cell hcell => (mem_cells_reach_iff.1 hcell).1⟩
  have fits {operation : String} {n : Int} (hlo : -2 ^ 16 ≤ n) (hhi : n ≤ 2 ^ 16) :
      fitSigned operation n = .ok n := fitSigned_eq_ok (by omega) (by omega)
  rw [checkedWindow, hrings, cellOf_eq h point, lastCell_eq h.cols_lt, lastCell_eq h.rows_lt]
  simp only [bind, Except.bind, Int.ofNat_eq_natCast]
  rw [fits (by omega) (by omega), fits (by omega) (by omega), fits (by omega) (by omega),
    fits (by omega) (by omega)]
  rfl

/-- Bounds in which nothing can fail: every position has a cell of the grid, whose place is below
the number of cells, and every search a window. -/
structure Safe (b : Bounds Single) : Prop where
  located : ∀ position, ∃ cell, b.cellOf position = .ok cell ∧ b.Has cell ∧
    b.flatIndex cell < b.cellCount
  searched : ∀ point radius, ∃ window, b.checkedWindow point radius = .ok window ∧
    b.window point radius = .ok window

theorem Sized.safe {b : Bounds Single} {most : Nat} (h : b.Sized most) (hmost : most < 2 ^ 15) :
    b.Safe := by
  have hproper : b.Proper := h.proper (by omega)
  refine ⟨fun position => ?_, fun point radius => ?_⟩
  · have hcell := b.has_nearest hproper (b.freeCell position)
    exact ⟨_, cellOf_eq hproper position, hcell, flatIndex_lt hcell⟩
  · obtain ⟨window, hchecked, hwindow, -⟩ := exists_checkedWindow hproper
      (Nat.lt_of_le_of_lt h.cols_le hmost) (Nat.lt_of_le_of_lt h.rows_le hmost) point radius
    exact ⟨window, hchecked, hwindow⟩

end Bounds

namespace Tracker

/-- A tracker whose bounds are within its cap keeps them there. -/
theorem sized_track {t : Tracker Single} (h : t.bounds.Sized (max t.maxCells.toNat 1))
    (camera : Camera Single) : (t.track camera).2.bounds.Sized (max t.maxCells.toNat 1) := by
  rcases t.track_cases camera with ⟨-, htrack⟩ | ⟨-, ⟨-, htrack⟩ | ⟨-, htrack⟩⟩ <;> rw [htrack]
  · exact h
  · exact h
  · exact sized_derive ..

/-- **Tracked bounds are within the cap.** The cap is one of the settings of the tracker, and
following keeps these. -/
theorem sized_followAll {t : Tracker Single} (h : t.bounds.Sized (max t.maxCells.toNat 1))
    (cameras : List (Camera Single)) :
    (t.followAll cameras).bounds.Sized (max t.maxCells.toNat 1) := by
  induction cameras generalizing t with
  | nil => exact h
  | cons camera rest ih =>
    have hmax := (t.settings_track camera).2.2
    rw [← hmax]
    exact ih (hmax.symm ▸ t.sized_track h camera)

end Tracker

/-! ## The bucket index -/

namespace BucketGrid

section

variable {α : Type} [Scalar α] {g : BucketGrid α} {s : Search α}

theorem exists_searchBucket {indices : List UInt32}
    (h : ∀ index ∈ indices, index.toNat < g.positions.size) (found : Array UInt32) :
    ∃ result, g.searchBucket s indices found = .ok result := by
  induction indices generalizing found with
  | nil => exact ⟨found, rfl⟩
  | cons index rest ih =>
    obtain ⟨hfirst, hrest⟩ := List.forall_mem_cons.1 h
    rw [searchBucket]
    split
    next => exact ih hrest found
    next =>
      obtain ⟨result, hresult⟩ := ih hrest
        (if s.accepts g.positions[index.toNat] then found.push index else found)
      exact ⟨result, bind_eq_ok_iff.2 ⟨_, fetch_eq_ok_iff.2 (Array.getElem?_eq_getElem hfirst),
        hresult⟩⟩

theorem Consistent.exists_searchRow (hg : g.Consistent) {x y : Int} {count : Nat}
    (hhas : ∀ cell ∈ Window.row y count x, g.bounds.Has cell) (found : Array UInt32) :
    ∃ result, g.searchRow s y count x found = .ok result := by
  induction count generalizing x found with
  | zero => exact ⟨found, rfl⟩
  | succ count ih =>
    obtain ⟨hfirst, hrest⟩ := List.forall_mem_cons.1 hhas
    have hplace := Bounds.flatIndex_lt hfirst
    rw [← hg.tidy.size_eq] at hplace
    have hbucket := Array.getElem?_eq_getElem hplace
    obtain ⟨between, hbetween⟩ := exists_searchBucket (s := s)
      (fun index h => hg.placed _ _ hbucket index (Array.mem_toList_iff.1 h)) found
    obtain ⟨result, hresult⟩ := ih hrest between
    exact ⟨result, bind_eq_ok_iff.2 ⟨_, fetch_eq_ok_iff.2 hbucket,
      bind_eq_ok_iff.2 ⟨between, hbetween, hresult⟩⟩⟩

theorem Consistent.exists_searchRows (hg : g.Consistent) {x y : Int} {columns count : Nat}
    (hhas : ∀ cell ∈ Window.block x columns count y, g.bounds.Has cell) (found : Array UInt32) :
    ∃ result, g.searchRows s x columns count y found = .ok result := by
  induction count generalizing y found with
  | zero => exact ⟨found, rfl⟩
  | succ count ih =>
    obtain ⟨hfirst, hrest⟩ := List.forall_mem_append.1 hhas
    obtain ⟨between, hbetween⟩ := hg.exists_searchRow hfirst found
    obtain ⟨result, hresult⟩ := ih hrest between
    exact ⟨result, bind_eq_ok_iff.2 ⟨between, hbetween, hresult⟩⟩

end

/-- An index in which nothing can fail: the places that the next build empties have buckets, and
every query has a result. -/
structure Safe (g : BucketGrid Single) : Prop where
  size_eq : g.buckets.size = g.bounds.cellCount
  emptied : ∀ place ∈ g.occupied, place < g.buckets.size
  queried : ∀ point radius exclude found, ∃ result,
    g.queryOnto point radius exclude found = .ok result

/-- **Nothing can fail in a consistent index.** Consistency says what the buckets hold, and size
says that every search has a window of cells to look them up in. -/
theorem Consistent.safe {g : BucketGrid Single} (hg : g.Consistent) {most : Nat}
    (hsized : g.bounds.Sized most) (hmost : most < 2 ^ 15) : g.Safe := by
  refine ⟨hg.tidy.size_eq, fun place hplace => ?_, fun point radius exclude found => ?_⟩
  · obtain ⟨bucket, hbucket, -⟩ := hg.listed.filled hplace
    exact (Array.getElem?_eq_some_iff.1 hbucket).1
  · obtain ⟨window, -, hwindow, hhas⟩ :=
      Bounds.exists_checkedWindow (hsized.proper (by omega))
        (Nat.lt_of_le_of_lt hsized.cols_le hmost) (Nat.lt_of_le_of_lt hsized.rows_le hmost)
        point radius
    obtain ⟨result, hresult⟩ := hg.exists_searchRows hhas found
    exact ⟨result, bind_eq_ok_iff.2 ⟨window, hwindow, hresult⟩⟩

end BucketGrid

/-! ## The slot index -/

namespace SlotGrid

/-- An index in which no search can fail: every turn that a search comes to passes its checks, the
search can be asked for its next index there, and every query has a result. -/
structure Safe (g : SlotGrid Single) : Prop where
  searched : ∀ point radius, ∃ c, RingCursor.start g point radius = .ok c ∧
    ∀ later, RingCursor.Leads g c later → RingCursor.check g later = .ok () ∧
      ∃ found last, RingCursor.next g later = .ok (found, last) ∧ RingCursor.Leads g c last
  queried : ∀ point radius exclude, ∃ result, g.query point radius exclude = .ok result

/-- **No search can fail** in an index whose counters and slots are accounted for. -/
theorem Accounted.safe {g : SlotGrid Single} {total : Nat} (hg : g.Accounted total) {most : Nat}
    (hsized : g.bounds.Sized most) (hmost : most < 2 ^ 15) : g.Safe := by
  have hproper : g.bounds.Proper := hsized.proper (by omega)
  have hcols := Nat.lt_of_le_of_lt hsized.cols_le hmost
  have hrows := Nat.lt_of_le_of_lt hsized.rows_le hmost
  refine ⟨fun point radius => ?_, fun point radius exclude => ?_⟩
  · obtain ⟨c, hc, -, hsteady, -⟩ := RingCursor.exists_start hproper hcols hrows point radius
    refine ⟨c, hc, fun later hleads => ⟨(hsteady.leads hproper hleads).check_eq_ok hcols hrows, ?_⟩⟩
    obtain ⟨found, last, hnext, hlast⟩ := RingCursor.exists_next hg later
    exact ⟨found, last, hnext, hleads.trans hlast⟩
  · obtain ⟨c, hc, -⟩ := RingCursor.exists_start hproper hcols hrows point radius
    obtain ⟨found, hfound⟩ := RingCursor.exists_drain hg c #[]
    exact ⟨_, bind_eq_ok_iff.2 ⟨c, hc, bind_eq_ok_iff.2 ⟨found, hfound, rfl⟩⟩⟩

theorem cellCount_lt {α : Type} {bounds : Bounds α} {most : Nat} (hsized : bounds.Sized most)
    (hmost : most < 2 ^ 15) : bounds.cellCount < 2 ^ 30 := by
  have hcells : bounds.cellCount ≤ 32767 * 32767 :=
    Nat.mul_le_mul (hsized.cols_le.trans (by omega)) (hsized.rows_le.trans (by omega))
  omega

/-- The slots of all cells have places that an address can hold. -/
theorem slotCount_lt {α : Type} {bounds : Bounds α} {most : Nat} (hsized : bounds.Sized most)
    (hmost : most < 2 ^ 15) (capacity : UInt32) :
    bounds.cellCount * capacity.toNat < 2 ^ 64 := by
  calc bounds.cellCount * capacity.toNat
      ≤ 2 ^ 30 * 2 ^ 32 :=
        Nat.mul_le_mul (cellCount_lt hsized hmost).le capacity.toNat_lt.le
    _ < 2 ^ 64 := by decide

/-- **Creating an index is refused only for its size**, when its slots take more bytes than a
container can have. The counters never do, as there are fewer than `2^30` cells. -/
theorem allocate_eq {α : Type} [Scalar α] {bounds : Bounds α} {most : Nat}
    (hsized : bounds.Sized most) (hmost : most < 2 ^ 15) (maxPerCell : UInt32) :
    allocate bounds maxPerCell =
      if bounds.cellCount * (max maxPerCell 1).toNat * wordBytes ≤ mostBytes then
        .ok (create bounds maxPerCell)
      else .error .oversized := by
  have hcells := cellCount_lt hsized hmost
  have hcounters : reserve bounds.cellCount wordBytes = .ok () := by
    rw [reserve, if_pos]
    rw [wordBytes, mostBytes]
    omega
  split
  next hslots =>
    exact bind_eq_ok_iff.2 ⟨_, fitWord_eq_ok (by omega), bind_eq_ok_iff.2 ⟨(), hcounters,
      bind_eq_ok_iff.2 ⟨(), if_pos hslots, rfl⟩⟩⟩
  next hslots =>
    have hrefused : reserve (bounds.cellCount * (create bounds maxPerCell).capacity.toNat)
        wordBytes = .error .oversized := if_neg hslots
    rw [allocate, fitWord_eq_ok (by omega)]
    dsimp only [bind, Except.bind]
    rw [hcounters]
    dsimp only
    rw [hrefused]

end SlotGrid

/-! ## Both indexes -/

namespace BucketGrid

/-- **Tracked bounds are within the cap** at every point of a history. -/
theorem Origin.sized_boundsAfter (camera : Camera Single) (cellSize padding : Single)
    (maxCells : UInt32) (moves : List (Move Single)) :
    ((Origin.tracked camera cellSize padding maxCells).boundsAfter moves).Sized
      (max 1 maxCells.toNat) := by
  rw [Nat.max_comm]
  exact (Tracker.create camera cellSize padding maxCells).sized_followAll
    (Tracker.sized_derive camera cellSize padding maxCells) _

end BucketGrid

open BucketGrid in
/-- **Nothing but a count fails in an index over tracked bounds**, with fewer than `2^15` cells
allowed on an axis, whatever bits the camera, the settings, positions, points and radii have, and
whatever was built and followed before.

* The bounds have a cell on each axis and keep to the cap, every position has a cell, and every
  search a window. Capping meets no empty range.
* The bucket index exists, the places that it empties have buckets, and every query has a result.
* The slot index exists unless its slots take more bytes than a container can have. No build looks
  past the end of a row, and a build passes all checks exactly when words can count the live
  particles of each cell and the dropped ones. They can as long as fewer than `2^32` particles are
  alive. Every search passes all checks at every turn. -/
theorem tracked_indexes_safe (camera : Camera Single) (cellSize padding : Single)
    (maxCells : UInt32) (hcap : maxCells.toNat < 2 ^ 15) (moves : List (Move Single)) :
    let origin := Origin.tracked camera cellSize padding maxCells
    let bounds := origin.boundsAfter moves
    (bounds.Sized (max 1 maxCells.toNat) ∧ bounds.Safe ∧
      ∀ b : Bounds Single, b.checkedCapped maxCells = .ok (b.capped maxCells)) ∧
    (∃ g, origin.run moves = .ok g ∧ g.bounds = bounds ∧ g.Safe) ∧
    ∀ maxPerCell : UInt32,
      bounds.cellCount * (max maxPerCell 1).toNat < 2 ^ 64 ∧
      (SlotGrid.allocate bounds maxPerCell =
        if bounds.cellCount * (max maxPerCell 1).toNat * wordBytes ≤ mostBytes then
          .ok (SlotGrid.create bounds maxPerCell)
        else .error .oversized) ∧
      ∀ slots, SlotGrid.Reachable bounds maxPerCell slots → slots.clear.Safe ∧
        ∀ particles : Array (Particle Single), ∃ built, slots.build particles = .ok built ∧
          built.Safe ∧ built.Checks (slots.checkedBuild particles) ∧
          (built.Counted ↔ bounds.Countable particles (max maxPerCell 1).toNat) ∧
          (particles.countP Particle.isAlive < 2 ^ 32 →
            slots.checkedBuild particles = .ok built) := by
  intro origin bounds
  have hmost : max 1 maxCells.toNat < 2 ^ 15 := by omega
  have hsized (done : List (Move Single)) :
      (origin.boundsAfter done).Sized (max 1 maxCells.toNat) :=
    Origin.sized_boundsAfter camera cellSize padding maxCells done
  refine ⟨⟨hsized moves, (hsized moves).safe hmost, fun b => b.checkedCapped_eq maxCells⟩, ?_,
    fun maxPerCell => ⟨SlotGrid.slotCount_lt (hsized moves) hmost _,
      SlotGrid.allocate_eq (hsized moves) hmost maxPerCell, fun slots hslots => ?_⟩⟩
  · -- the buckets
    obtain ⟨g, hrun, hstep⟩ : ∃ g, origin.run moves = .ok g ∧ g.InStep origin moves :=
      origin.exists_run hmost fun done _ => hsized done
    obtain ⟨hconsistent, hbounds, -⟩ := hstep
    exact ⟨g, hrun, hbounds, hconsistent.safe (hbounds ▸ hsized moves) hmost⟩
  · -- the slots: what the build with its checks comes to is what the build holds
    obtain ⟨hshape, hcapacity⟩ := hslots.shape
    have hslots_sized : slots.bounds.Sized (max 1 maxCells.toNat) := by
      rw [hshape]
      exact hsized moves
    refine ⟨(SlotGrid.accounted_of_uncounted slots.asked_clear rfl).safe hslots_sized hmost,
      fun particles => ?_⟩
    have hproper : slots.bounds.Proper := hslots_sized.proper (by omega)
    obtain ⟨built, hbuild, hkept, haccounted, hchecks⟩ :=
      SlotGrid.exists_checkedBuild hproper particles
    obtain ⟨built', hbuild', hkeeps, hholds⟩ := slots.exists_holding particles hproper
    obtain rfl : built = built' := Except.ok.inj (hbuild.symm.trans hbuild')
    refine ⟨built, hbuild, haccounted.safe (hkept ▸ hslots_sized) hmost, hchecks, ?_,
      hchecks.eq_ok haccounted⟩
    rw [hholds.counted_iff, hkeeps.bounds_eq, hkeeps.capacity_eq]
    dsimp only
    rw [hshape, hcapacity]

/-- A camera of which no value is a number. -/
def brokenCamera : Camera Single :=
  ⟨⟨.undefined, .undefined⟩, ⟨.undefined, .undefined⟩, .undefined⟩

/-- A live particle whose position is not a number. -/
def lostParticles : Array (Particle Single) :=
  #[Birth.withId { Birth.standard with position := ⟨.undefined, .undefined⟩ } 0]

open BucketGrid in
/-- With a camera and a padding that are not numbers, cells of no size and no cell allowed there is
one cell, and a particle whose position is not a number can be indexed in both ways. -/
theorem tracked_indexes_safe_broken :
    let origin := Origin.tracked brokenCamera 0 .undefined 0
    (origin.boundsAfter [.build lostParticles]).Sized 1 ∧
      (∃ g, origin.run [.build lostParticles] = .ok g ∧ g.Safe) ∧
      ∃ slots built, SlotGrid.allocate (origin.boundsAfter [.build lostParticles]) 1 = .ok slots ∧
        slots.checkedBuild lostParticles = .ok built ∧ built.Safe := by
  obtain ⟨⟨hsized, -, -⟩, ⟨g, hrun, -, hsafe⟩, hslots⟩ :=
    tracked_indexes_safe brokenCamera 0 .undefined 0 (by decide) [.build lostParticles]
  obtain ⟨-, hallocate, hbuilds⟩ := hslots 1
  rw [if_pos (by decide +kernel)] at hallocate
  obtain ⟨built, -, hbuilt, -, -, hchecked⟩ := (hbuilds _ (.allocate hallocate)).2 lostParticles
  exact ⟨hsized, ⟨g, hrun, hsafe⟩, _, built, hallocate, hchecked (by decide +kernel), hbuilt⟩

open BucketGrid in
/-- What counting can come to. In the one cell around the broken camera, `2^32` particles at one
position overflow its counter, although the index could be created. Around the standard camera, with
cells of a twenty-fifth and a high cap, there are so many cells that `2^32 - 1` slots for each take
more bytes than a container can have. -/
theorem tracked_indexes_break :
    let lost := (Origin.tracked brokenCamera 0 .undefined 0).boundsAfter []
    let wide := (Origin.tracked (Camera.standard : Camera Single) 0.04 0 32767).boundsAfter []
    (∃ slots, SlotGrid.allocate lost 1 = .ok slots ∧
      slots.checkedBuild (Array.replicate (2 ^ 32) (Birth.withId Birth.standard 0)) =
        .error (.overflow "add")) ∧
      SlotGrid.allocate wide 4294967295 = .error .oversized := by
  intro lost wide
  have hlost : lost.Sized 1 := Origin.sized_boundsAfter brokenCamera 0 .undefined 0 []
  have hwide : wide.Sized 32767 := Origin.sized_boundsAfter Camera.standard 0.04 0 32767 []
  have hcreated := SlotGrid.allocate_eq hlost (by decide) 1
  rw [if_pos (by decide +kernel)] at hcreated
  refine ⟨⟨_, hcreated, ?_⟩, ?_⟩
  · clear_value lost
    have halive : Particle.isAlive (Birth.withId (Birth.standard : Birth Single) 0) = true := by
      decide +kernel
    exact SlotGrid.checkedBuild_replicate (hlost.proper (by decide)) halive (Nat.le_refl _)
  · rw [SlotGrid.allocate_eq hwide (by omega), if_neg (by decide +kernel)]

end ParticleDynamics
