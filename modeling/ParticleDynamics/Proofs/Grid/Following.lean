import ParticleDynamics.Proofs.Grid.Tracking
import ParticleDynamics.Proofs.Single.Finite

/-!
# How bounds follow a camera

A tracker that has followed some cameras (`Tracker.followAll`) has its anchor among them, or still
at the camera that it was made for. Its bounds are those that are derived from the anchor
(`Tracker.Settled`): they are derived anew whenever the anchor moves, and when the old ones were
kept in spite of that, it was because they were equal to the new ones.

Equality is that of numbers, so that bounds with a value that is not a number would not even equal
themselves. The bounds meant here are **numeric** (`Bounds.Numeric`).

How far the camera is from the anchor is measured as the tracker measures it, by a rounded
difference on each axis (`Tracker.Near`).
-/

namespace ParticleDynamics

/-! ## Numeric bounds -/

namespace Bounds

/-- Bounds of which every value is a number. -/
@[mk_iff]
structure Numeric (b : Bounds Single) : Prop where
  origin_x : b.origin.x.isNumber = true
  origin_y : b.origin.y.isNumber = true
  cellSize : b.cellSize.isNumber = true

instance (b : Bounds Single) : Decidable b.Numeric := decidable_of_iff' _ (numeric_iff b)

/-- Bounds are compared value by value. -/
theorem beq_iff {b b' : Bounds Single} :
    (b == b') = true ↔ (b.origin.x == b'.origin.x) = true ∧ (b.origin.y == b'.origin.y) = true ∧
      (b.cellSize == b'.cellSize) = true ∧ b.cols = b'.cols ∧ b.rows = b'.rows := by
  obtain ⟨⟨x, y⟩, cellSize, cols, rows⟩ := b
  obtain ⟨⟨x', y'⟩, cellSize', cols', rows'⟩ := b'
  change (((x == x') && (y == y')) && ((cellSize == cellSize') &&
    ((cols == cols') && (rows == rows')))) = true ↔ _
  simp only [Bool.and_eq_true, beq_iff_eq, and_assoc]

/-- **Numeric bounds equal themselves.** -/
theorem Numeric.beq_self {b : Bounds Single} (h : b.Numeric) : (b == b) = true :=
  beq_iff.2 ⟨h.origin_x, h.origin_y, h.cellSize, rfl, rfl⟩

end Bounds

theorem Single.parts_ne_notANumber_of_beq {x y : Single} (h : (x == y) = true) :
    x.parts ≠ .notANumber := by
  intro hx
  change Float.Model.UnpackedFloat.beq x.value.toModel.unpack _ = true at h
  rw [unpack_value, hx] at h
  cases h

namespace Tracker

section

variable {α : Type} [Scalar α]

/-! ## Following many cameras -/

/-- The tracker after it has followed cameras, one after the other. -/
def followAll (t : Tracker α) (cameras : List (Camera α)) : Tracker α :=
  cameras.foldl (fun t camera => (t.track camera).2) t

theorem followAll_cons (t : Tracker α) (camera : Camera α) (rest : List (Camera α)) :
    t.followAll (camera :: rest) = (t.track camera).2.followAll rest := rfl

theorem followAll_concat (t : Tracker α) (cameras : List (Camera α)) (camera : Camera α) :
    t.followAll (cameras ++ [camera]) = ((t.followAll cameras).track camera).2 := by
  rw [followAll, List.foldl_append]
  rfl

/-- Following a camera keeps the settings. -/
theorem settings_track (t : Tracker α) (camera : Camera α) :
    (t.track camera).2.cellSize = t.cellSize ∧ (t.track camera).2.padding = t.padding ∧
      (t.track camera).2.maxCells = t.maxCells := by
  rcases t.track_cases camera with ⟨-, htrack⟩ | ⟨-, ⟨-, htrack⟩ | ⟨-, htrack⟩⟩ <;> rw [htrack] <;>
    exact ⟨rfl, rfl, rfl⟩

theorem settings_followAll (t : Tracker α) (cameras : List (Camera α)) :
    (t.followAll cameras).cellSize = t.cellSize ∧ (t.followAll cameras).padding = t.padding ∧
      (t.followAll cameras).maxCells = t.maxCells := by
  induction cameras generalizing t with
  | nil => exact ⟨rfl, rfl, rfl⟩
  | cons camera rest ih =>
    obtain ⟨hsize, hpadding, hmax⟩ := t.settings_track camera
    obtain ⟨hsize', hpadding', hmax'⟩ := ih (t.track camera).2
    exact ⟨hsize'.trans hsize, hpadding'.trans hpadding, hmax'.trans hmax⟩

/-- The anchor stays where it is or moves to the camera. -/
theorem anchor_track (t : Tracker α) (camera : Camera α) :
    (t.track camera).2.anchor = t.anchor ∨ (t.track camera).2.anchor = camera := by
  rcases t.track_cases camera with ⟨-, htrack⟩ | ⟨-, ⟨-, htrack⟩ | ⟨-, htrack⟩⟩ <;> rw [htrack]
  · exact .inl rfl
  · exact .inr rfl
  · exact .inr rfl

/-- **The anchor is one of the cameras.** -/
theorem anchor_followAll_mem (t : Tracker α) (cameras : List (Camera α)) :
    (t.followAll cameras).anchor ∈ t.anchor :: cameras := by
  induction cameras generalizing t with
  | nil => exact List.mem_cons_self ..
  | cons camera rest ih =>
    rcases List.mem_cons.1 (ih (t.track camera).2) with hanchor | hmem
    · rw [followAll_cons, hanchor]
      rcases t.anchor_track camera with hkept | hmoved
      · rw [hkept]
        exact List.mem_cons_self ..
      · rw [hmoved]
        exact List.mem_cons_of_mem _ (List.mem_cons_self ..)
    · exact List.mem_cons_of_mem _ (List.mem_cons_of_mem _ hmem)

/-! ## Settled trackers -/

/-- The bounds equal those that are derived from the anchor. -/
def Settled (t : Tracker α) : Prop :=
  (derive t.anchor t.cellSize t.padding t.maxCells == t.bounds) = true

end

/-- **A settled tracker that follows a camera is settled again**, as long as its bounds are
numeric. -/
theorem Settled.track {t : Tracker Single} {camera : Camera Single} (h : t.Settled)
    (hnumeric : (t.track camera).2.bounds.Numeric) : (t.track camera).2.Settled := by
  rcases t.track_cases camera with ⟨-, htrack⟩ | ⟨-, ⟨hsame, htrack⟩ | ⟨-, htrack⟩⟩ <;>
    rw [htrack] at hnumeric ⊢
  · exact h
  · -- the old bounds were kept because they equal the new ones
    exact hsame
  · exact hnumeric.beq_self

theorem Settled.followAll {t : Tracker Single} {cameras : List (Camera Single)} (h : t.Settled)
    (hnumeric : ∀ seen, seen <+: cameras → (t.followAll seen).bounds.Numeric) :
    (t.followAll cameras).Settled := by
  induction cameras generalizing t with
  | nil => exact h
  | cons camera rest ih =>
    have hfirst := hnumeric [camera] (List.prefix_append [camera] rest)
    exact ih (h.track hfirst) fun seen hseen =>
      hnumeric (camera :: seen) (List.cons_prefix_cons.2 ⟨rfl, hseen⟩)

/-- The flag tells whether the bounds differ from those before, as numbers. -/
theorem changed_iff {t : Tracker Single} (hnumeric : t.bounds.Numeric) (camera : Camera Single) :
    (t.track camera).1 = true ↔ ((t.track camera).2.bounds == t.bounds) = false := by
  rcases t.track_cases camera with ⟨-, htrack⟩ | ⟨-, ⟨-, htrack⟩ | ⟨hnew, htrack⟩⟩ <;> rw [htrack]
  · simp [hnumeric.beq_self]
  · simp [hnumeric.beq_self]
  · simp [hnew]

/-! ## Cameras that stay close -/

/-- A camera shows as much as the anchor does, and its centre is within half a cell of the anchor's
on each axis. -/
structure Near (t : Tracker Single) (camera : Camera Single) : Prop where
  zoom_eq : (camera.zoom == t.anchor.zoom) = true
  viewport_eq : (camera.viewport == t.anchor.viewport) = true
  x_le : (camera.center.x - t.anchor.center.x).abs ≤ t.bounds.cellSize * 0.5
  y_le : (camera.center.y - t.anchor.center.y).abs ≤ t.bounds.cellSize * 0.5

/-- When the larger of two numbers is at most a bound, both are. -/
theorem le_of_largest_le {v : Vec2 Single} {most : Single} (hx : v.x.parts ≠ .notANumber)
    (hy : v.y.parts ≠ .notANumber) (h : v.largest ≤ most) : v.x ≤ most ∧ v.y ≤ most := by
  rw [Vec2.largest] at h
  split at h
  next hlt => exact ⟨h, Single.le_trans (Single.le_of_lt hlt) h⟩
  next hnot => exact ⟨Single.le_trans (Single.le_of_not_lt hx hy hnot) h, h⟩

/-- **The centre of a camera with numeric bounds has numbers for coordinates.** -/
theorem center_of_derive {camera : Camera Single} {cellSize padding : Single} {maxCells : UInt32}
    {b : Bounds Single} (h : (derive camera cellSize padding maxCells == b) = true) :
    camera.center.x.parts ≠ .notANumber ∧ camera.center.y.parts ≠ .notANumber := by
  obtain ⟨hx, hy, -, -, -⟩ := Bounds.beq_iff.1 h
  have horigin : (derive camera cellSize padding maxCells).origin =
      (Bounds.fromCamera camera cellSize padding).origin := by
    rw [derive, Bounds.capped]
    split <;> rfl
  rw [horigin] at hx hy
  have axis {center extent size : Single}
      (h : (((center - extent) / size).floor * size).parts ≠ .notANumber) :
      center.parts ≠ .notANumber := fun hnone =>
    h (Single.notANumber_mul (Single.notANumber_floor
      (Single.notANumber_div (Single.notANumber_sub hnone _) _)) _)
  exact ⟨axis (Single.parts_ne_notANumber_of_beq hx), axis (Single.parts_ne_notANumber_of_beq hy)⟩

/-- **A camera that a settled tracker stays for is near its anchor.** -/
theorem Settled.near {t : Tracker Single} {camera : Camera Single} (h : t.Settled)
    (hx : camera.center.x.isFinite = true) (hy : camera.center.y.isFinite = true)
    (hkeeps : t.keeps camera = true) : t.Near camera := by
  obtain ⟨hanchor, hanchor'⟩ := center_of_derive h
  simp only [keeps, Bool.and_eq_true, Bool.not_eq_true', Bool.or_eq_false_iff, bne,
    Bool.not_eq_false', decide_eq_true_eq] at hkeeps
  obtain ⟨⟨hzoom, hviewport⟩, hdrift⟩ := hkeeps
  obtain ⟨hxnear, hynear⟩ :=
    le_of_largest_le (v := (camera.center - t.anchor.center).map Single.abs)
      (Single.parts_abs_ne_notANumber (Single.parts_sub_ne_notANumber hx hanchor))
      (Single.parts_abs_ne_notANumber (Single.parts_sub_ne_notANumber hy hanchor')) hdrift
  exact ⟨hzoom, hviewport, hxnear, hynear⟩

/-- After a camera was followed, it is the anchor or it is near the anchor. -/
theorem Settled.near_track {t : Tracker Single} {camera : Camera Single} (h : t.Settled)
    (hx : camera.center.x.isFinite = true) (hy : camera.center.y.isFinite = true) :
    (t.track camera).2.anchor = camera ∨ (t.track camera).2.Near camera := by
  cases hkeeps : t.keeps camera with
  | true =>
    rw [track_of_keeps hkeeps]
    exact .inr (h.near hx hy hkeeps)
  | false => exact .inl (anchor_track_of_not_keeps hkeeps)

/-- **Bounds follow the camera.** For a tracker made for some camera that has followed any number of
cameras, and then follows the latest one, as long as no bounds on the way have a value that is not
a number:

* the anchor is the first camera or one of those that were followed;
* the bounds equal those derived from the anchor;
* the anchor is the latest camera, or the latest camera shows as much as the anchor does and its
  centre is within half a current cell of the anchor's on each axis;
* the flag tells whether the bounds differ from the bounds before. -/
theorem follows_camera (camera : Camera Single) (cellSize padding : Single) (maxCells : UInt32)
    (cameras : List (Camera Single)) (latest : Camera Single)
    (hx : latest.center.x.isFinite = true) (hy : latest.center.y.isFinite = true)
    (hnumeric : ∀ seen, seen <+: cameras ++ [latest] →
      ((create camera cellSize padding maxCells).followAll seen).bounds.Numeric) :
    let before := (create camera cellSize padding maxCells).followAll cameras
    let after := (before.track latest).2
    after.anchor ∈ camera :: (cameras ++ [latest]) ∧
      (derive after.anchor cellSize padding maxCells == after.bounds) = true ∧
      (after.anchor = latest ∨ after.Near latest) ∧
      ((before.track latest).1 = true ↔ (after.bounds == before.bounds) = false) := by
  intro before after
  have hafter : (create camera cellSize padding maxCells).followAll (cameras ++ [latest]) = after :=
    followAll_concat _ cameras latest
  have hstart : (create camera cellSize padding maxCells).Settled :=
    (hnumeric [] (List.nil_prefix ..)).beq_self
  have hbefore : before.Settled := hstart.followAll fun seen hseen =>
    hnumeric seen (hseen.trans (List.prefix_append cameras [latest]))
  have hsettled : after.Settled := hafter ▸ hstart.followAll hnumeric
  obtain ⟨hsize, hpadding, hmax⟩ :=
    settings_followAll (create camera cellSize padding maxCells) (cameras ++ [latest])
  rw [hafter] at hsize hpadding hmax
  refine ⟨?_, ?_, hbefore.near_track hx hy, ?_⟩
  · rw [← hafter]
    exact anchor_followAll_mem _ _
  · rw [Settled, hsize, hpadding, hmax] at hsettled
    exact hsettled
  · exact changed_iff (hnumeric cameras (List.prefix_append cameras [latest])) latest

/-- The standard view, moved to the right by some distance. -/
def panned (distance : Single) : Camera Single := { Camera.standard with center := ⟨distance, 0⟩ }

/-- With cells of 40 a camera that moves by ten stays near the anchor, and one that moves by seventy
becomes the anchor of other bounds. -/
theorem follows_camera_panned :
    let before := (create (panned 0) 40.0 0.5 256).followAll [panned 10.0]
    let after := (before.track (panned 70.0)).2
    before.Near (panned 10.0) ∧ after.anchor = panned 70.0 ∧
      (derive after.anchor 40.0 0.5 256 == after.bounds) = true ∧
      (after.bounds == before.bounds) = false := by
  have hnumeric : ∀ seen ∈ List.inits [panned 10.0, panned 70.0],
      ((create (panned 0) 40.0 0.5 256).followAll seen).bounds.Numeric := by decide +kernel
  have hprefix : ∀ seen, seen <+: [panned 10.0, panned 70.0] →
      ((create (panned 0) 40.0 0.5 256).followAll seen).bounds.Numeric :=
    fun seen hseen => hnumeric seen ((List.mem_inits ..).2 hseen)
  obtain ⟨-, -, hnear, -⟩ := follows_camera (panned 0) 40.0 0.5 256 [] (panned 10.0)
    (by decide +kernel) (by decide +kernel)
    fun seen hseen => hprefix seen (hseen.trans (List.prefix_append [panned 10.0] [panned 70.0]))
  obtain ⟨-, hderive, -, hchanged⟩ := follows_camera (panned 0) 40.0 0.5 256 [panned 10.0]
    (panned 70.0) (by decide +kernel) (by decide +kernel) hprefix
  have hanchor : (((create (panned 0) 40.0 0.5 256).followAll [panned 10.0]).track
      (panned 70.0)).2.anchor = panned 70.0 := by decide +kernel
  exact ⟨hnear.resolve_left (by decide +kernel), hanchor, hderive, hchanged.1 (by decide +kernel)⟩

end Tracker

end ParticleDynamics
