import ParticleDynamics.Grid.Buckets
import ParticleDynamics.Proofs.Grid.Occupants
import ParticleDynamics.Proofs.Grid.Window

/-!
# What the bucket index holds and finds

An index is rebuilt many times over the same buckets, and before a rebuild only those buckets are
emptied that it remembers to have used. Reachable indexes are **tidy** (`BucketGrid.Tidy`): every
bucket that holds something is remembered. So nothing of an earlier build survives the emptying, and
a built index holds exactly the occupants of each place (`BucketGrid.Tidy.exists_holds`).

A query goes through the cells of a window. What it finds is said by one equation
(`BucketGrid.query_eq`), from which order, repetition and completeness follow.
-/

namespace ParticleDynamics

namespace BucketGrid

variable {α : Type} [Scalar α]

/-! ## Reachable indexes -/

/-- The indexes that creating, following a camera and building lead to. -/
inductive Reachable : BucketGrid α → Prop where
  /-- an empty index over fixed bounds -/
  | allocate {bounds : Bounds α} {g : BucketGrid α} (h : allocate bounds = .ok g) : Reachable g
  /-- an empty index that follows a camera -/
  | ofCamera {camera : Camera α} {cellSize padding : α} {maxCells : UInt32} {g : BucketGrid α}
      (h : ofCamera camera cellSize padding maxCells = .ok g) : Reachable g
  /-- an index that followed the camera -/
  | track {g g' : BucketGrid α} {camera : Camera α} {changed : Bool} (hg : Reachable g)
      (h : g.track camera = .ok (changed, g')) : Reachable g'
  /-- an index that was built -/
  | build {g g' : BucketGrid α} {particles : Array (Particle α)} (hg : Reachable g)
      (h : g.build particles = .ok g') : Reachable g'

/-- There is a bucket for every cell, and every bucket in use is remembered. -/
structure Tidy (g : BucketGrid α) : Prop where
  size_eq : g.buckets.size = g.bounds.cellCount
  remembered : ∀ {place : Nat} {bucket : Array UInt32}, g.buckets[place]? = some bucket →
    bucket ≠ #[] → place ∈ g.occupied

omit [Scalar α] in
theorem tidy_of_replicate {g : BucketGrid α}
    (h : g.buckets = Array.replicate g.bounds.cellCount #[]) : g.Tidy := by
  refine ⟨by rw [h, Array.size_replicate], fun {place bucket} hbucket hne => ?_⟩
  rw [h, Array.getElem?_replicate] at hbucket
  split at hbucket
  · exact absurd (Option.some.inj hbucket).symm hne
  · cases hbucket

omit [Scalar α] in
theorem allocate_eq_ok {bounds : Bounds α} {g : BucketGrid α}
    (h : BucketGrid.allocate bounds = .ok g) : g = ofBounds bounds := by
  obtain ⟨-, -, h⟩ := bind_eq_ok_iff.1 h
  exact (Except.ok.inj h).symm

/-- Emptying keeps the number of buckets. -/
theorem size_emptied (buckets : Array (Array UInt32)) (occupied : Array Nat) :
    (emptied buckets occupied).size = buckets.size := by
  rw [emptied]
  refine Array.foldl_induction (fun _ (left : Array (Array UInt32)) => left.size = buckets.size)
    rfl (fun i left h => ?_)
  rw [Array.size_modify, h]

/-- Emptying empties the named buckets and no other. -/
theorem getElem?_emptied (buckets : Array (Array UInt32)) (occupied : Array Nat) (place : Nat) :
    (emptied buckets occupied)[place]? =
      if place ∈ occupied then buckets[place]?.map fun _ => #[] else buckets[place]? := by
  obtain ⟨occupied⟩ := occupied
  simp only [emptied, List.foldl_toArray, List.mem_toArray]
  induction occupied generalizing buckets with
  | nil => simp
  | cons first rest ih =>
    simp only [List.foldl_cons, ih, Array.getElem?_modify, List.mem_cons]
    by_cases hfirst : first = place
    · subst hfirst
      simp [Function.comp_def]
    · rw [if_neg hfirst]
      simp [Ne.symm hfirst]

omit [Scalar α] in
/-- **Nothing survives the emptying** of a tidy index. Only the listed places are emptied, and this
is why the list has to be complete. -/
theorem Tidy.getElem?_emptied {g : BucketGrid α} (h : g.Tidy) {place : Nat}
    (hplace : place < g.bounds.cellCount) :
    (emptied g.buckets g.occupied)[place]? = some #[] := by
  have hsome : place < g.buckets.size := by rw [h.size_eq]; exact hplace
  rw [BucketGrid.getElem?_emptied, Array.getElem?_eq_getElem hsome]
  by_cases hmem : place ∈ g.occupied
  · rw [if_pos hmem, Option.map_some]
  · -- a bucket that is not remembered was empty all along
    rw [if_neg hmem, Option.some.injEq]
    by_contra hne
    exact hmem (h.remembered (Array.getElem?_eq_getElem hsome) hne)

/-! ## Inserting -/

/-- The index with `index` put into the bucket at a place. -/
def filed (g : BucketGrid α) (place : Nat) (bucket : Array UInt32) (index : Nat) : BucketGrid α :=
  { g with
    occupied := if bucket.isEmpty then g.occupied.push place else g.occupied
    buckets := g.buckets.modify place fun b => b.push index.toUInt32 }

/-- **All that inserting can do**: a dead particle changes nothing, and a live one goes into the
bucket of its cell. -/
theorem insert_eq_ok_iff {g g' : BucketGrid α} {index : Nat} {p : Particle α} :
    g.insert index p = .ok g' ↔
      p.isAlive = false ∧ g' = g ∨
      p.isAlive = true ∧ ∃ cell bucket, g.bounds.cellOf p.position = .ok cell ∧
        g.buckets[g.bounds.flatIndex cell]? = some bucket ∧
        g' = g.filed (g.bounds.flatIndex cell) bucket index := by
  rw [insert]
  cases halive : p.isAlive with
  | false => simp [eq_comm]
  | true =>
    rw [if_pos rfl, bind_eq_ok_iff]
    constructor
    · rintro ⟨cell, hcell, h⟩
      obtain ⟨bucket, hbucket, h⟩ := bind_eq_ok_iff.1 h
      exact .inr ⟨rfl, cell, bucket, hcell, fetch_eq_ok_iff.1 hbucket, (Except.ok.inj h).symm⟩
    · rintro (⟨hdead, -⟩ | ⟨-, cell, bucket, hcell, hbucket, rfl⟩)
      · cases hdead
      · exact ⟨cell, hcell, bind_eq_ok_iff.2 ⟨bucket, fetch_eq_ok_iff.2 hbucket, rfl⟩⟩

/-- Inserting keeps an index tidy. -/
theorem Tidy.insert {g g' : BucketGrid α} {index : Nat} {p : Particle α} (hg : g.Tidy)
    (h : g.insert index p = .ok g') : g'.Tidy := by
  rcases insert_eq_ok_iff.1 h with ⟨-, rfl⟩ | ⟨-, cell, bucket, -, hbucket, rfl⟩
  · exact hg
  · refine ⟨by rw [filed, Array.size_modify]; exact hg.size_eq, fun {place found} hfound hne => ?_⟩
    simp only [filed, Array.getElem?_modify] at hfound ⊢
    by_cases hplace : g.bounds.flatIndex cell = place
    · -- the bucket that was filled is remembered now, if it was not before
      subst hplace
      by_cases hempty : bucket = #[]
      · simp [hempty]
      · have hold := hg.remembered hbucket hempty
        split
        · exact Array.mem_push_of_mem _ hold
        · exact hold
    · rw [if_neg hplace] at hfound
      have hold := hg.remembered hfound hne
      split
      · exact Array.mem_push_of_mem _ hold
      · exact hold

theorem Tidy.insertFrom {particles : List (Particle α)} {g g' : BucketGrid α} {index : Nat}
    (hg : g.Tidy) (h : g.insertFrom index particles = .ok g') : g'.Tidy := by
  induction particles generalizing g index with
  | nil =>
    obtain rfl := Except.ok.inj h
    exact hg
  | cons p rest ih =>
    obtain ⟨between, hp, hrest⟩ := bind_eq_ok_iff.1 h
    exact ih (hg.insert hp) hrest

/-- The index that a build starts to fill. -/
def readied (g : BucketGrid α) (particles : Array (Particle α)) : BucketGrid α :=
  { g with
    buckets := emptied g.buckets g.occupied
    positions := particles.map Particle.position
    occupied := #[] }

omit [Scalar α] in
theorem Tidy.size_readied {g : BucketGrid α} (hg : g.Tidy) (particles : Array (Particle α)) :
    (g.readied particles).buckets.size = g.bounds.cellCount := by
  rw [BucketGrid.readied, size_emptied, hg.size_eq]

omit [Scalar α] in
theorem Tidy.eq_empty_of_readied {g : BucketGrid α} (hg : g.Tidy) {particles : Array (Particle α)}
    {place : Nat} {bucket : Array UInt32}
    (hbucket : (g.readied particles).buckets[place]? = some bucket) : bucket = #[] := by
  have hlt : place < g.bounds.cellCount := by
    rw [← hg.size_readied particles]
    exact (Array.getElem?_eq_some_iff.1 hbucket).1
  exact (Option.some.inj ((hg.getElem?_emptied hlt).symm.trans hbucket)).symm

omit [Scalar α] in
theorem Tidy.readied {g : BucketGrid α} (hg : g.Tidy) (particles : Array (Particle α)) :
    (g.readied particles).Tidy :=
  ⟨hg.size_readied particles, fun hbucket hne => absurd (hg.eq_empty_of_readied hbucket) hne⟩

omit [Scalar α] in
theorem tidy_of_allocate {bounds : Bounds α} {g : BucketGrid α}
    (h : BucketGrid.allocate bounds = .ok g) : g.Tidy := by
  rw [allocate_eq_ok h]
  exact tidy_of_replicate rfl

theorem tidy_of_ofCamera {camera : Camera α} {cellSize padding : α} {maxCells : UInt32}
    {g : BucketGrid α} (h : ofCamera camera cellSize padding maxCells = .ok g) : g.Tidy := by
  obtain ⟨empty, hempty, h⟩ := bind_eq_ok_iff.1 h
  obtain rfl := allocate_eq_ok hempty
  obtain rfl := Except.ok.inj h
  exact tidy_of_replicate rfl

/-- **All that following a camera can do** besides moving the tracker: nothing, or starting over
with empty buckets. In the first case the buckets may be full of indices of an earlier build, and
the next build has to empty them. -/
theorem track_cases {g g' : BucketGrid α} {camera : Camera α} {changed : Bool}
    (h : g.track camera = .ok (changed, g')) :
    (∃ tracker, g' = { g with tracker := tracker }) ∨
      g'.buckets = Array.replicate g'.bounds.cellCount #[] ∧ g'.occupied = #[] := by
  rw [BucketGrid.track] at h
  split at h
  · cases h
    exact .inl ⟨_, rfl⟩
  · split at h
    · cases h
      exact .inl ⟨_, rfl⟩
    · obtain ⟨empty, hempty, h⟩ := bind_eq_ok_iff.1 h
      obtain rfl := allocate_eq_ok hempty
      cases h
      exact .inr ⟨rfl, rfl⟩

/-- Following a camera keeps an index tidy. -/
theorem Tidy.track {g g' : BucketGrid α} {camera : Camera α} {changed : Bool} (hg : g.Tidy)
    (h : g.track camera = .ok (changed, g')) : g'.Tidy := by
  rcases track_cases h with ⟨tracker, rfl⟩ | ⟨hbuckets, -⟩
  · exact ⟨hg.size_eq, hg.remembered⟩
  · exact tidy_of_replicate hbuckets

theorem Tidy.build {g g' : BucketGrid α} {particles : Array (Particle α)} (hg : g.Tidy)
    (h : g.build particles = .ok g') : g'.Tidy :=
  (hg.readied particles).insertFrom h

/-- **Every reachable index is tidy.** -/
theorem Reachable.tidy {g : BucketGrid α} (hg : Reachable g) : g.Tidy := by
  induction hg with
  | allocate h => exact tidy_of_allocate h
  | ofCamera h => exact tidy_of_ofCamera h
  | track hg h ih => exact ih.track h
  | build hg h ih => exact ih.build h

/-! ## Building -/

/-- The first `count` particles are in their buckets, and nothing else is. -/
def Holds (g : BucketGrid α) (particles : Array (Particle α)) (count : Nat) : Prop :=
  ∀ {place : Nat}, place < g.bounds.cellCount →
    g.buckets[place]? =
      some ((g.bounds.occupants particles place count).map Nat.toUInt32).toArray

/-- One round of a build. -/
theorem Holds.insert {g : BucketGrid α} {particles : Array (Particle α)} {count : Nat}
    {p : Particle α} (hproper : g.bounds.Proper) (hg : g.Holds particles count)
    (hp : particles[count]? = some p) :
    ∃ g', g.insert count p = .ok g' ∧ g'.Holds particles (count + 1) := by
  cases halive : p.isAlive with
  | false =>
    refine ⟨g, insert_eq_ok_iff.2 (.inl ⟨halive, rfl⟩), fun {place} hplace => ?_⟩
    rw [hg hplace, Bounds.occupants_succ, Bounds.cellAt_of_dead hp halive]
    simp
  | true =>
    have hcell : g.bounds.cellAt particles count =
        some (g.bounds.nearest (g.bounds.freeCell p.position)) :=
      (Bounds.cellAt_eq_some_iff hproper).2 ⟨p, hp, halive, rfl⟩
    have hlt := Bounds.flatIndex_lt (Bounds.has_of_cellAt hproper hcell)
    refine ⟨_, insert_eq_ok_iff.2 (.inr ⟨halive, _, _, Bounds.cellOf_eq hproper _, hg hlt, rfl⟩),
      fun {place} hplace => ?_⟩
    simp only [filed, Array.getElem?_modify]
    rw [hg hplace, Bounds.occupants_succ, hcell]
    simp only [Option.map_some, Option.some.injEq]
    split
    next => simp
    next => simp

/-- An index that was built from a list of particles. -/
structure Built (g : BucketGrid α) (particles : Array (Particle α)) : Prop where
  proper : g.bounds.Proper
  few : particles.size ≤ 2 ^ 32
  positions_eq : g.positions = particles.map Particle.position
  holds : g.Holds particles particles.size

/-- **A build holds exactly the occupants of each place**, whatever was indexed before. The
induction is on the particles that have been inserted so far, with their occupants as the
invariant. -/
theorem Tidy.exists_holds {g : BucketGrid α} (hg : g.Tidy) (hproper : g.bounds.Proper)
    (particles : Array (Particle α)) :
    ∃ g', g.build particles = .ok g' ∧ g'.Holds particles particles.size := by
  have hempty : (g.readied particles).bounds = g.bounds ∧
      (g.readied particles).Holds particles 0 := by
    refine ⟨rfl, fun {place} hplace => ?_⟩
    rw [Bounds.occupants_zero]
    exact hg.getElem?_emptied hplace
  have hround {state : BucketGrid α} {count : Nat} {p : Particle α}
      (hp : particles[count]? = some p)
      (h : state.bounds = g.bounds ∧ state.Holds particles count) :
      ∃ next, state.insert count p = .ok next ∧ next.bounds = g.bounds ∧
        next.Holds particles (count + 1) := by
    obtain ⟨hbounds, hholds⟩ := h
    obtain ⟨next, hnext, hholds'⟩ := hholds.insert (by rw [hbounds]; exact hproper) hp
    exact ⟨next, hnext, (insert_keeps hnext).1.trans hbounds, hholds'⟩
  obtain ⟨g', hbuild, -, hholds⟩ :=
    exists_loop BucketGrid.insertFrom BucketGrid.insert (fun state count =>
      state.bounds = g.bounds ∧ state.Holds particles count) (fun _ _ => rfl) (fun _ _ _ _ => rfl)
      hround (List.nil_append _).symm hempty
  exact ⟨g', hbuild, hholds⟩

/-- **Building a tidy index over proper bounds succeeds**, and the index stays tidy. -/
theorem Tidy.exists_build {g : BucketGrid α} (hg : g.Tidy) (hproper : g.bounds.Proper)
    (particles : Array (Particle α)) :
    ∃ g', g.build particles = .ok g' ∧ g'.Tidy ∧ g'.bounds = g.bounds := by
  obtain ⟨g', hbuild, -⟩ := hg.exists_holds hproper particles
  exact ⟨g', hbuild, hg.build hbuild, (build_keeps hbuild).1⟩

/-- With no more particles than there are words, what a build leaves can be searched. -/
theorem exists_build {g : BucketGrid α} (hg : g.Tidy) (hproper : g.bounds.Proper)
    {particles : Array (Particle α)} (hfew : particles.size ≤ 2 ^ 32) :
    ∃ g', g.build particles = .ok g' ∧ g'.bounds = g.bounds ∧ g'.Built particles := by
  obtain ⟨g', hbuild, hholds⟩ := hg.exists_holds hproper particles
  obtain ⟨hbounds, -, hpositions⟩ := build_keeps hbuild
  exact ⟨g', hbuild, hbounds, hbounds ▸ hproper, hfew, hpositions, hholds⟩

/-! ## Querying -/

/-- Whether a search keeps the index of a particle. -/
def Search.keeps (s : Search α) (particles : Array (Particle α)) (index : Nat) : Bool :=
  !s.leavesOut index.toUInt32 && particles[index]?.any fun p => s.accepts p.position

variable {g : BucketGrid α} {particles : Array (Particle α)} {s : Search α}

omit [Scalar α] in
theorem Search.leavesOut_eq_false_iff {index : UInt32} :
    s.leavesOut index = false ↔ some index ≠ s.exclude := by
  rw [Search.leavesOut]
  cases s.exclude <;> simp

/-- A search keeps the particles that lie close enough, except the one it leaves out. -/
theorem Search.keeps_iff {index : Nat} :
    s.keeps particles index = true ↔ some index.toUInt32 ≠ s.exclude ∧
      ∃ p, particles[index]? = some p ∧
        p.position.distanceSquared s.point ≤ s.radiusSquared := by
  rw [Search.keeps, Bool.and_eq_true, Bool.not_eq_true', Search.leavesOut_eq_false_iff,
    Option.any_eq_true]
  simp only [Search.accepts, decide_eq_true_eq]

/-- Searching a bucket. -/
theorem Built.searchBucket_eq (hg : g.Built particles) {indices : List Nat}
    (hindices : ∀ index ∈ indices, index < particles.size) (found : Array UInt32) :
    g.searchBucket s (indices.map Nat.toUInt32) found =
      .ok (found ++ ((indices.filter (s.keeps particles)).map Nat.toUInt32).toArray) := by
  induction indices generalizing found with
  | nil => simp [searchBucket]
  | cons index rest ih =>
    have hlt : index < particles.size := hindices index (List.mem_cons_self ..)
    have hposition := Bounds.fetch_position hg.few hg.positions_eq hlt
    have hkeeps : s.keeps particles index =
        (!s.leavesOut index.toUInt32 && s.accepts particles[index].position) := by
      rw [Search.keeps, Array.getElem?_eq_getElem hlt, Option.any_some]
    have hrest := ih fun other hother => hindices other (List.mem_cons_of_mem _ hother)
    rw [List.map_cons, searchBucket]
    cases hout : s.leavesOut index.toUInt32 with
    | true =>
      -- the index is the one to be left out
      rw [if_pos rfl, hrest, List.filter_cons_of_neg (by rw [hkeeps, hout]; exact Bool.noConfusion)]
    | false =>
      rw [if_neg Bool.false_ne_true, hposition]
      change g.searchBucket s _ _ = _
      cases haccepts : s.accepts particles[index].position with
      | true =>
        rw [if_pos rfl, hrest, List.filter_cons_of_pos (by rw [hkeeps, hout, haccepts]; rfl)]
        simp
      | false =>
        rw [if_neg Bool.false_ne_true, hrest,
          List.filter_cons_of_neg (by rw [hkeeps, hout, haccepts]; exact Bool.noConfusion)]

/-- Searching the cells of a row from a column on. -/
theorem Built.searchRow_eq (hg : g.Built particles) {x y : Int} {count : Nat}
    (hhas : ∀ cell ∈ Window.row y count x, g.bounds.Has cell) (found : Array UInt32) :
    g.searchRow s y count x found = .ok (found ++
      ((g.bounds.gather particles (s.keeps particles) (Window.row y count x)).map
        Nat.toUInt32).toArray) := by
  induction count generalizing x found with
  | zero => simp [searchRow, Window.row]
  | succ count ih =>
    obtain ⟨hfirst, hrest⟩ := List.forall_mem_cons.1 hhas
    refine bind_eq_ok_iff.2 ⟨_, fetch_eq_ok_iff.2 (hg.holds (Bounds.flatIndex_lt hfirst)), ?_⟩
    refine bind_eq_ok_iff.2 ⟨_, hg.searchBucket_eq (fun index h =>
      (Bounds.mem_occupants_iff.1 h).1) found, ?_⟩
    rw [ih hrest, Window.row, Bounds.gather_cons]
    simp

/-- Searching some rows. -/
theorem Built.searchRows_eq (hg : g.Built particles) {x y : Int} {columns count : Nat}
    (hhas : ∀ cell ∈ Window.block x columns count y, g.bounds.Has cell) (found : Array UInt32) :
    g.searchRows s x columns count y found = .ok (found ++
      ((g.bounds.gather particles (s.keeps particles) (Window.block x columns count y)).map
        Nat.toUInt32).toArray) := by
  induction count generalizing y found with
  | zero => simp [searchRows, Window.block]
  | succ count ih =>
    obtain ⟨hfirst, hrest⟩ := List.forall_mem_append.1 hhas
    refine bind_eq_ok_iff.2 ⟨_, hg.searchRow_eq hfirst found, ?_⟩
    rw [ih hrest, Window.block, Bounds.gather_append]
    simp

/-- What a query finds in the cells of its window. -/
theorem Built.query_of_window (hg : g.Built particles) {point : Vec2 α} {radius : α}
    {window : Window} (exclude : Option UInt32) (hwindow : g.bounds.window point radius = .ok window)
    (hhas : ∀ cell ∈ window.cells, g.bounds.Has cell) :
    g.query point radius exclude =
      .ok ((g.bounds.gather particles (Search.keeps ⟨point, radius * radius, exclude⟩ particles)
        window.cells).map Nat.toUInt32).toArray := by
  refine bind_eq_ok_iff.2 ⟨window, hwindow, (hg.searchRows_eq hhas #[]).trans ?_⟩
  rw [Array.empty_append]
  rfl

/-- **What a query finds.** The right side mentions no bucket: it is about the particles, their
cells and the window alone, and it is what the two indexes are compared by. -/
theorem Built.query_eq (hg : g.Built particles) (point : Vec2 α) {radius : α} {rings : Nat}
    (exclude : Option UInt32) (hrings : g.bounds.ringsFor radius = .ok rings)
    (hcols : g.bounds.cols.toNat + rings ≤ 2 ^ 31) (hrows : g.bounds.rows.toNat + rings ≤ 2 ^ 31) :
    g.query point radius exclude =
      .ok ((g.bounds.gather particles
        (Search.keeps ⟨point, radius * radius, exclude⟩ particles)
        (g.bounds.reach (g.bounds.nearest (g.bounds.freeCell point)) rings).cells).map
          Nat.toUInt32).toArray :=
  hg.query_of_window exclude (Bounds.window_eq hg.proper hrings hcols hrows)
    fun _ hcell => (Bounds.mem_cells_reach_iff.1 hcell).1

end BucketGrid

end ParticleDynamics
