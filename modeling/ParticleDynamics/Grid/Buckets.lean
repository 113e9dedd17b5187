import ParticleDynamics.Grid.Tracker
import ParticleDynamics.Particle

/-!
# The bucket index

One bucket of particle indices per cell, rebuilt from the live particles. A query visits the cells
of a window row by row and keeps the indices whose position is close enough, in bucket order.

Two details carry the weight:

* positions are captured when the index is built, so queries never see a later change;
* only the buckets that hold something are emptied before a rebuild. `occupied` names them, in the
  order in which they were first used, and that is all the index remembers between builds.
-/

namespace ParticleDynamics

/-- A spatial index with one bucket per cell. -/
structure BucketGrid (α : Type) where
  /-- the cells -/
  bounds : Bounds α
  /-- how the bounds follow the camera; fixed bounds have no tracker -/
  tracker : Option (Tracker α)
  /-- the particle indices of each cell, cells in row-major order -/
  buckets : Array (Array UInt32)
  /-- the positions at the time of the last build -/
  positions : Array (Vec2 α)
  /-- the cells whose buckets hold something -/
  occupied : Array Nat

namespace BucketGrid

variable {α : Type} [Scalar α]

/-- An empty index over fixed bounds. -/
def ofBounds (bounds : Bounds α) : BucketGrid α where
  bounds := bounds
  tracker := none
  buckets := Array.replicate bounds.cellCount #[]
  positions := #[]
  occupied := #[]

/-- The number of bytes that an empty bucket takes. -/
def bucketBytes : Nat := 24

/-- An empty index over fixed bounds, provided that its buckets can exist. -/
def allocate (bounds : Bounds α) : Except Breach (BucketGrid α) := do
  reserve bounds.cellCount bucketBytes
  return ofBounds bounds

/-- An empty index that follows a camera, with at most `maxCells` cells on an axis. -/
def ofCamera (camera : Camera α) (cellSize padding : α) (maxCells : UInt32) :
    Except Breach (BucketGrid α) := do
  let tracker := Tracker.create camera cellSize padding maxCells
  return { ← allocate tracker.bounds with tracker := some tracker }

/-- Follow the camera. New bounds come with empty buckets; the flag tells whether they are new. -/
def track (g : BucketGrid α) (camera : Camera α) : Except Breach (Bool × BucketGrid α) :=
  match g.tracker with
  | none => .ok (false, g)
  | some tracker =>
    match tracker.track camera with
    | (false, followed) => .ok (false, { g with tracker := some followed })
    | (true, followed) => do
      let empty ← allocate followed.bounds
      return (true, { empty with tracker := some followed, positions := g.positions })

/-! ### Building -/

/-- The buckets with the named ones emptied. -/
def emptied (buckets : Array (Array UInt32)) (occupied : Array Nat) : Array (Array UInt32) :=
  occupied.foldl (fun buckets cell => buckets.modify cell fun _ => #[]) buckets

/-- The index with one more particle, unless it is dead. -/
def insert (g : BucketGrid α) (index : Nat) (p : Particle α) : Except Breach (BucketGrid α) :=
  if p.isAlive then do
    let cell := g.bounds.flatIndex (← g.bounds.cellOf p.position)
    let bucket ← fetch g.buckets cell
    return { g with
      occupied := if bucket.isEmpty then g.occupied.push cell else g.occupied
      buckets := g.buckets.modify cell fun b => b.push index.toUInt32 }
  else
    .ok g

/-- The index with the particles of a list inserted in order, the first one at `index`. -/
def insertFrom (g : BucketGrid α) (index : Nat) : List (Particle α) → Except Breach (BucketGrid α)
  | [] => .ok g
  | p :: rest => do insertFrom (← g.insert index p) (index + 1) rest

/-- The index of the given particles, whatever was indexed before. -/
def build (g : BucketGrid α) (particles : Array (Particle α)) : Except Breach (BucketGrid α) :=
  insertFrom
    { g with
      buckets := emptied g.buckets g.occupied
      positions := particles.map Particle.position
      occupied := #[] }
    0 particles.toList

/-- The number of indexed particles. -/
def indexedCount (g : BucketGrid α) : Nat :=
  g.occupied.foldl (fun total cell => total + (g.buckets[cell]?.getD #[]).size) 0

/-! ### Querying -/

/-- What a query looks for. -/
structure Search (α : Type) where
  /-- the centre of the search -/
  point : Vec2 α
  /-- the square of the radius -/
  radiusSquared : α
  /-- an index to leave out -/
  exclude : Option UInt32

/-- Whether a search leaves out an index. -/
def Search.leavesOut (s : Search α) (index : UInt32) : Bool :=
  match s.exclude with
  | some excluded => index == excluded
  | none => false

/-- Whether a position is close enough. -/
def Search.accepts (s : Search α) (position : Vec2 α) : Bool :=
  decide (position.distanceSquared s.point ≤ s.radiusSquared)

/-- The found indices with those of one bucket appended. -/
def searchBucket (g : BucketGrid α) (s : Search α) :
    List UInt32 → Array UInt32 → Except Breach (Array UInt32)
  | [], found => .ok found
  | index :: rest, found =>
    if s.leavesOut index then searchBucket g s rest found
    else do
      let position ← fetch g.positions index.toNat
      searchBucket g s rest (if s.accepts position then found.push index else found)

/-- The found indices with those of `count` cells of row `y` appended, from column `x` on. -/
def searchRow (g : BucketGrid α) (s : Search α) (y : Int) :
    (count : Nat) → (x : Int) → Array UInt32 → Except Breach (Array UInt32)
  | 0, _, found => .ok found
  | count + 1, x, found => do
    let bucket ← fetch g.buckets (g.bounds.flatIndex ⟨x, y⟩)
    searchRow g s y count (x + 1) (← searchBucket g s bucket.toList found)

/-- The found indices with those of `count` rows appended, from row `y` on. -/
def searchRows (g : BucketGrid α) (s : Search α) (x : Int) (columns : Nat) :
    (count : Nat) → (y : Int) → Array UInt32 → Except Breach (Array UInt32)
  | 0, _, found => .ok found
  | count + 1, y, found => do
    searchRows g s x columns count (y + 1) (← searchRow g s y columns x found)

/-- The found indices with those appended that lie within `radius` of `point`, without the
excluded one: rows from low to high, in each row columns from low to high. -/
def queryOnto (g : BucketGrid α) (point : Vec2 α) (radius : α) (exclude : Option UInt32)
    (found : Array UInt32) : Except Breach (Array UInt32) := do
  let window ← g.bounds.window point radius
  let columns := (window.hi.x - window.lo.x + 1).toNat
  let rows := (window.hi.y - window.lo.y + 1).toNat
  searchRows g ⟨point, radius * radius, exclude⟩ window.lo.x columns rows window.lo.y found

/-- The indices within `radius` of `point`, without the excluded one. -/
def query (g : BucketGrid α) (point : Vec2 α) (radius : α) (exclude : Option UInt32) :
    Except Breach (Array UInt32) :=
  g.queryOnto point radius exclude #[]

/-! ### What building keeps -/

/-- Inserting a particle changes neither the bounds nor the captured positions. -/
theorem insert_keeps {g g' : BucketGrid α} {index : Nat} {p : Particle α}
    (h : g.insert index p = .ok g') :
    g'.bounds = g.bounds ∧ g'.tracker = g.tracker ∧ g'.positions = g.positions := by
  unfold insert at h
  split at h
  · cases hcell : g.bounds.cellOf p.position with
    | error b => simp [hcell, bind, Except.bind] at h
    | ok cell =>
      cases hbucket : fetch g.buckets (g.bounds.flatIndex cell) with
      | error b => simp [hcell, hbucket, bind, Except.bind] at h
      | ok bucket =>
        simp only [hcell, hbucket, bind, Except.bind, pure, Except.pure, Except.ok.injEq] at h
        subst h
        exact ⟨rfl, rfl, rfl⟩
  · obtain rfl := Except.ok.inj h
    exact ⟨rfl, rfl, rfl⟩

/-- Inserting a list of particles changes neither the bounds nor the captured positions. -/
theorem insertFrom_keeps {particles : List (Particle α)} {g g' : BucketGrid α} {index : Nat}
    (h : g.insertFrom index particles = .ok g') :
    g'.bounds = g.bounds ∧ g'.tracker = g.tracker ∧ g'.positions = g.positions := by
  induction particles generalizing g index with
  | nil =>
    obtain rfl := Except.ok.inj h
    exact ⟨rfl, rfl, rfl⟩
  | cons p rest ih =>
    cases hp : g.insert index p with
    | error b => simp [insertFrom, hp, bind, Except.bind] at h
    | ok between =>
      simp only [insertFrom, hp, bind, Except.bind] at h
      have first := insert_keeps hp
      have later := ih h
      exact ⟨later.1.trans first.1, later.2.1.trans first.2.1, later.2.2.trans first.2.2⟩

/-- A built index has the bounds it had and the positions of the particles it was built from. -/
theorem build_keeps {g g' : BucketGrid α} {particles : Array (Particle α)}
    (h : g.build particles = .ok g') :
    g'.bounds = g.bounds ∧ g'.tracker = g.tracker ∧
      g'.positions = particles.map Particle.position :=
  insertFrom_keeps h

end BucketGrid

end ParticleDynamics
