import Mathlib.Analysis.SpecialFunctions.Trigonometric.Basic
import ParticleDynamics.Proofs.Force.Tension
import ParticleDynamics.Proofs.Pipeline.Pairs
import ParticleDynamics.Proofs.Pipeline.Schedule

/-!
# Joints converge

In a pass of constraints both ends of a joint are displaced at once, each as it sees the other when
the pass begins. Where nothing else touches the two particles, such a pass brings their distance
closer to the rest length by the factor that the stiffness leaves over, and so do the passes that
follow: the deviation decays geometrically with their number (`Scene.linked_converge`).

What is assumed of the other modules is said of their turns in the passes that take place
(`Scene.Turn.Spares`): each leaves both particles as they were. Whatever it does to the others, and
whatever it would do elsewhere, does not matter.
-/

namespace ParticleDynamics

namespace Scene

section Turns

variable {α : Type} [Scalar α] {registry : Registry α} {layout : ScratchLayout} {phase : Phase}
  {dt : α}

/-! ## The turns of a pass -/

/-- The turn of a module in a pass. -/
structure Turn (α : Type) where
  /-- whose turn it is -/
  entry : Entry α
  /-- the scene when the turn begins -/
  before : Scene α
  /-- the scene that the turn leaves -/
  after : Scene α

/-- The turn leaves the particle at an index as it was. -/
def Turn.Spares (turn : Turn α) (index : Nat) : Prop :=
  turn.after.particles[index]? = turn.before.particles[index]?

/-- The turns of the given modules, in a pass that began with the scene `began`. -/
def turnsFrom (began : Scene α) (layout : ScratchLayout) (phase : Phase) (dt : α) :
    List (Entry α) → Scene α → List (Turn α)
  | [], _ => []
  | entry :: rest, current =>
    ⟨entry, current, (began.passOf layout phase dt entry).turn current⟩ ::
      turnsFrom began layout phase dt rest ((began.passOf layout phase dt entry).turn current)

/-- The turns of a pass that begins with a scene. -/
def turns (began : Scene α) (registry : Registry α) (layout : ScratchLayout) (phase : Phase)
    (dt : α) : List (Turn α) :=
  began.turnsFrom layout phase dt (registry.entries.toList.filter (takesPart phase)) began

theorem turnsFrom_append (began : Scene α) (entries later : List (Entry α)) (current : Scene α) :
    began.turnsFrom layout phase dt (entries ++ later) current =
      began.turnsFrom layout phase dt entries current ++
        began.turnsFrom layout phase dt later
          (entries.foldl (fun current entry => (began.passOf layout phase dt entry).turn current)
            current) := by
  induction entries generalizing current with
  | nil => rfl
  | cons entry rest ih => exact congrArg (List.cons _) (ih _)

theorem entry_mem_of_mem_turnsFrom {began current : Scene α} {entries : List (Entry α)}
    {turn : Turn α} (h : turn ∈ began.turnsFrom layout phase dt entries current) :
    turn.entry ∈ entries := by
  induction entries generalizing current with
  | nil => cases h
  | cons entry rest ih =>
    rcases List.mem_cons.1 h with rfl | h
    · exact List.mem_cons_self
    · exact List.mem_cons_of_mem _ (ih h)

/-- A particle that all turns spare is as it was. -/
theorem getElem?_of_spares {began current : Scene α} {entries : List (Entry α)} {index : Nat}
    (h : ∀ turn ∈ began.turnsFrom layout phase dt entries current, turn.Spares index) :
    (entries.foldl (fun current entry => (began.passOf layout phase dt entry).turn current)
      current).particles[index]? = current.particles[index]? := by
  induction entries generalizing current with
  | nil => rfl
  | cons entry rest ih =>
    obtain ⟨hturn, hrest⟩ := List.forall_mem_cons.1 h
    exact (ih hrest).trans hturn

/-- **Where one module alone acts on a particle**, a pass leaves of it what the call of that module
leaves. The turns of the others may do to other particles what they like. -/
theorem getElem?_runPhase_of_only (hnames : registry.names.Nodup) {entry : Entry α}
    (hentry : entry ∈ registry.entries) (htakes : takesPart phase entry = true) {began : Scene α}
    {index : Nat}
    (hothers : ∀ turn ∈ began.turns registry layout phase dt,
      turn.entry.module.name ≠ entry.module.name → turn.Spares index)
    {p : Particle α} (hp : began.particles[index]? = some p) (halive : p.isAlive = true) :
    ∃ table, (began.runPhase registry layout phase dt).particles[index]? =
      some ((began.passOf layout phase dt entry).call index p table).2.particle := by
  obtain ⟨earlier, later, hsplit⟩ := List.append_of_mem
    (List.mem_filter.2 ⟨Array.mem_toList_iff.2 hentry, htakes⟩)
  -- no other module that takes part has the same name
  have hdistinct : ((earlier ++ entry :: later).map fun e => e.module.name).Nodup := by
    rw [← hsplit]
    rw [Registry.names, Registry.modules, List.map_map] at hnames
    exact hnames.sublist ((List.filter_sublist ..).map _)
  rw [List.map_append, List.map_cons, List.nodup_middle, List.nodup_cons, ← List.map_append]
    at hdistinct
  have hname {other : Entry α} (hother : other ∈ earlier ++ later) :
      other.module.name ≠ entry.module.name := fun heq =>
    hdistinct.1 (heq ▸ List.mem_map_of_mem (f := fun e : Entry α => e.module.name) hother)
  rw [turns, hsplit, turnsFrom_append] at hothers
  obtain ⟨hearlier, hrest⟩ := List.forall_mem_append.1 hothers
  obtain ⟨-, hlater⟩ := List.forall_mem_cons.1 hrest
  rw [runPhase, hsplit, List.foldl_append, List.foldl_cons]
  have hbefore := (getElem?_of_spares fun turn hturn => hearlier turn hturn (hname
    (List.mem_append_left _ (entry_mem_of_mem_turnsFrom hturn)))).trans hp
  rw [getElem?_of_spares fun turn hturn => hlater turn hturn (hname
    (List.mem_append_right _ (entry_mem_of_mem_turnsFrom hturn))),
    Pass.getElem?_turn _ hbefore halive]
  exact ⟨_, rfl⟩

/-- A pass neither adds nor removes a particle. -/
theorem size_runPhase (began : Scene α) :
    (began.runPhase registry layout phase dt).particles.size = began.particles.size := by
  rw [runPhase]
  refine List.foldlRecOn
    (motive := fun (current : Scene α) => current.particles.size = began.particles.size) _ _ rfl ?_
  intro current ih entry _
  exact (Pass.size_moment ..).trans ih

/-! ## One pass of constraints more -/

/-- The scene with which a pass of constraints begins, after a number of others. -/
def Begins (scene : Scene α) (registry : Registry α) (layout : ScratchLayout) (dt : α)
    (earlier : Nat) (began : Scene α) : Prop :=
  ∃ before, scene.constrain registry layout dt earlier = .ok before ∧ before.rebuild = .ok began

/-- **The last of the passes of constraints** comes after all the others. -/
theorem constrain_succ_eq_ok_iff {scene last : Scene α} {earlier : Nat} :
    scene.constrain registry layout dt (earlier + 1) = .ok last ↔
      ∃ began, scene.Begins registry layout dt earlier began ∧
        began.runPhase registry layout .constrain dt = last := by
  induction earlier generalizing scene with
  | zero =>
    refine bind_eq_ok_iff.trans (exists_congr fun began => ?_)
    constructor
    · exact fun ⟨hbegan, hlast⟩ => ⟨⟨scene, rfl, hbegan⟩, Except.ok.inj hlast⟩
    · rintro ⟨⟨before, hbefore, hbegan⟩, rfl⟩
      obtain rfl := Except.ok.inj hbefore
      exact ⟨hbegan, rfl⟩
  | succ earlier ih =>
    constructor
    · intro h
      obtain ⟨first, hfirst, h⟩ := bind_eq_ok_iff.1 h
      obtain ⟨began, ⟨before, hbefore, hbegan⟩, hlast⟩ := ih.1 h
      exact ⟨began, ⟨before, bind_eq_ok_iff.2 ⟨first, hfirst, hbefore⟩, hbegan⟩, hlast⟩
    · rintro ⟨began, ⟨before, hbefore, hbegan⟩, hlast⟩
      obtain ⟨first, hfirst, hbefore⟩ := bind_eq_ok_iff.1 hbefore
      exact bind_eq_ok_iff.2 ⟨first, hfirst, ih.2 ⟨began, ⟨before, hbefore, hbegan⟩, hlast⟩⟩

end Turns

variable {K : Type} [Field K] [LinearOrder K] [IsStrictOrderedRing K] [FloorRing K]
  [Scalar.Curves K] {registry : Registry K} {layout : ScratchLayout} {dt : K} {params : ParamBag K}
  {i j : Nat} {p q p' q' : Particle K} {rest : K}

/-! ## One pass over a linked pair -/

omit [IsStrictOrderedRing K] in
/-- Where the joints alone act on an end of a joint, a pass displaces it by the joint. -/
theorem getElem?_runPhase_of_linked (hnames : registry.names.Nodup)
    (hentry : ⟨Joints.module, params⟩ ∈ registry.entries) (henabled : params.enabled = true)
    {began : Scene K} (hfew : began.particles.size ≤ 2 ^ 32)
    (hlinked : Joints.Linked params i.toUInt32 j.toUInt32 rest)
    (hothers : ∀ turn ∈ began.turns registry layout .constrain dt,
      turn.entry.module.name ≠ (Joints.module : Module K).name → turn.Spares i)
    (hp : began.particles[i]? = some p) (hp0 : p.mass ≠ 0)
    (hq : began.particles[j]? = some q) (hq0 : q.mass ≠ 0) :
    (began.runPhase registry layout .constrain dt).particles[i]? =
      some { p with
        position := p.position +
          Joints.pulled (params.get Joints.stiffness) rest p q i.toUInt32 j.toUInt32 } := by
  have htakes : takesPart .constrain (⟨Joints.module, params⟩ : Entry K) = true := henabled
  obtain ⟨table, hleft⟩ := getElem?_runPhase_of_only hnames hentry htakes hothers hp
    (bne_iff_ne.2 hp0)
  let pass := began.passOf layout .constrain dt ⟨Joints.module, params⟩
  rw [hleft]
  exact congrArg some (Joints.Linked.particle_run_pull (v := pass.view i) hlinked pass.site
    { particle := p, table := table } (View.other_toUInt32 hfew hp) hp0
    (View.other_toUInt32 hfew hq) hq0)

/-! ## Pass after pass -/

/-- **What a number of passes make of a linked pair**: nothing but the positions changes, whoever is
pinned stays, the deviation of the distance from the rest length has decayed, and the centre of mass
of a free pair is where it was. -/
structure Approached (stiffness rest : K) (passes : Nat) (p q p' q' : Particle K) : Prop where
  left_eq : p' = { p with position := p'.position }
  right_eq : q' = { q with position := q'.position }
  left_pinned : p.mass < 0 → p'.position = p.position
  right_pinned : q.mass < 0 → q'.position = q.position
  distance_eq : (p'.position - q'.position).length =
    rest + (1 - stiffness) ^ passes * ((p.position - q.position).length - rest)
  centre_eq : 0 < p.mass → 0 < q.mass →
    p'.position * p.mass + q'.position * q.mass = p.position * p.mass + q.position * q.mass

omit [IsStrictOrderedRing K] in
theorem Approached.refl (stiffness rest : K) (p q : Particle K) :
    Approached stiffness rest 0 p q p q := by
  refine ⟨rfl, rfl, fun _ => rfl, fun _ => rfl, ?_, fun _ _ => rfl⟩
  rw [pow_zero, one_mul, add_sub_cancel]

omit [IsStrictOrderedRing K] in
/-- The passes change neither mass. -/
theorem Approached.mass_eq {stiffness : K} {passes : Nat}
    (h : Approached stiffness rest passes p q p' q') : p'.mass = p.mass ∧ q'.mass = q.mass := by
  constructor
  · rw [h.left_eq]
  · rw [h.right_eq]

/-- **One pass more** brings the pair closer to the rest length by one factor. The distance law is
exact only in a field with roots, which is where the length of a stretched vector is the stretched
length. -/
theorem Approached.pulled (hroots : Scalar.Curves.Rooted K) {stiffness : K} {passes : Nat}
    (h : Approached stiffness rest passes p q p' q') {a b : UInt32} (hne : a ≠ b)
    (hfree : 0 < p.mass ∨ 0 < q.mass) (hstiff : 0 ≤ stiffness ∧ stiffness ≤ 1)
    (hrest : coincident < rest) (hfar : coincident < (p'.position - q'.position).length) :
    Approached stiffness rest (passes + 1) p q
      { p' with position := p'.position + Joints.pulled stiffness rest p' q' a b }
      { q' with position := q'.position + Joints.pulled stiffness rest q' p' b a } := by
  obtain ⟨hpmass, hqmass⟩ := h.mass_eq
  refine ⟨?_, ?_, fun hpinned => ?_, fun hpinned => ?_, ?_, fun hp hq => ?_⟩
  · rw [h.left_eq]
  · rw [h.right_eq]
  · rw [← h.left_pinned hpinned]
    exact (congrArg _ (Joints.pulled_of_neg (hpmass ▸ hpinned) ..)).trans (add_zero _)
  · rw [← h.right_pinned hpinned]
    exact (congrArg _ (Joints.pulled_of_neg (hqmass ▸ hpinned) ..)).trans (add_zero _)
  · rw [← hpmass, ← hqmass] at hfree
    refine (Joints.length_pulled hroots hne hfree hstiff hrest hfar).trans ?_
    rw [h.distance_eq, add_sub_cancel_left, ← mul_assoc, ← pow_succ']
  · refine Eq.trans ?_ (h.centre_eq hp hq)
    rw [← hpmass, ← hqmass]
    exact Joints.weighted_pulled hne (hpmass ▸ hp) (hqmass ▸ hq)

/-- **Joint convergence.** Read exactly, with square roots for what is not negative: let one joint
alone link two live particles, at least one of them free, at a rest length and at a distance above
the coincidence threshold, with a stiffness between zero and one. After any number of passes of
constraints in which all modules but the joints leave the two particles as they are, the distance is
`rest + (1 - stiffness) ^ passes * (distance - rest)`; whoever of the two is pinned has not moved,
and if both are free, their centre of mass has not. -/
theorem linked_converge (hroots : Scalar.Curves.Rooted K) (hnames : registry.names.Nodup)
    (hentry : ⟨Joints.module, params⟩ ∈ registry.entries) (henabled : params.enabled = true)
    (hstiff : 0 ≤ params.get Joints.stiffness ∧ params.get Joints.stiffness ≤ 1)
    (hrest : coincident < rest) (hlinked : Joints.Linked params i.toUInt32 j.toUInt32 rest)
    {scene : Scene K} (hready : scene.Ready) (hfew : scene.particles.size ≤ 2 ^ 32)
    (hp : scene.particles[i]? = some p) (hp0 : p.mass ≠ 0)
    (hq : scene.particles[j]? = some q) (hq0 : q.mass ≠ 0) (hfree : 0 < p.mass ∨ 0 < q.mass)
    (hfar : coincident < (p.position - q.position).length) (passes : Nat)
    (hothers : ∀ earlier < passes, ∀ began, scene.Begins registry layout dt earlier began →
      ∀ turn ∈ began.turns registry layout .constrain dt,
        turn.entry.module.name ≠ (Joints.module : Module K).name →
          turn.Spares i ∧ turn.Spares j) :
    ∃ last p' q', scene.constrain registry layout dt passes = .ok last ∧
      last.particles[i]? = some p' ∧ last.particles[j]? = some q' ∧
      Approached (params.get Joints.stiffness) rest passes p q p' q' := by
  -- the ends also stay apart, or the next pass would have no direction to pull in
  suffices h : ∃ last p' q', scene.constrain registry layout dt passes = .ok last ∧ last.Ready ∧
      last.particles.size = scene.particles.size ∧
      last.particles[i]? = some p' ∧ last.particles[j]? = some q' ∧
      coincident < (p'.position - q'.position).length ∧
      Approached (params.get Joints.stiffness) rest passes p q p' q' by
    obtain ⟨last, p', q', hlast, -, -, hp', hq', -, happroached⟩ := h
    exact ⟨last, p', q', hlast, hp', hq', happroached⟩
  induction passes with
  | zero => exact ⟨scene, p, q, rfl, hready, rfl, hp, hq, hfar, .refl ..⟩
  | succ passes ih =>
    obtain ⟨before, p', q', hbefore, hready', hsize, hp', hq', hfar', happroached⟩ :=
      ih fun earlier hlt => hothers earlier (Nat.lt_succ_of_lt hlt)
    -- the pass begins with a new index and the particles that the passes before have left
    obtain ⟨began, hbegan, hready'⟩ := hready'.exists_rebuild
    have hbegins : scene.Begins registry layout dt passes began := ⟨before, hbefore, hbegan⟩
    have hparticles := particles_of_rebuild hbegan
    rw [← hparticles] at hp' hq' hsize
    have hspares := hothers passes (Nat.lt_succ_self passes) began hbegins
    have hp0' : p'.mass ≠ 0 := happroached.mass_eq.1 ▸ hp0
    have hq0' : q'.mass ≠ 0 := happroached.mass_eq.2 ▸ hq0
    have hfree' : 0 < p'.mass ∨ 0 < q'.mass := by
      rw [happroached.mass_eq.1, happroached.mass_eq.2]
      exact hfree
    have hfew' : began.particles.size ≤ 2 ^ 32 := hsize ▸ hfew
    have hnext := happroached.pulled hroots hlinked.ne hfree hstiff hrest hfar'
    refine ⟨_, _, _, constrain_succ_eq_ok_iff.2 ⟨began, hbegins, rfl⟩, hready'.runPhase, ?_,
      getElem?_runPhase_of_linked hnames hentry henabled hfew' hlinked
        (fun turn hturn hname => (hspares turn hturn hname).1) hp' hp0' hq' hq0',
      getElem?_runPhase_of_linked hnames hentry henabled hfew' hlinked.symm
        (fun turn hturn hname => (hspares turn hturn hname).2) hq' hq0' hp' hp0', ?_, hnext⟩
    · exact (size_runPhase began).trans hsize
    · -- the new distance is a mean of two that are large enough
      dsimp only
      rw [Joints.length_pulled hroots hlinked.ne hfree' hstiff hrest hfar']
      exact Joints.lt_mean hstiff hrest hfar'

/-- Square roots, cosines and sines of real numbers. -/
@[reducible]
noncomputable def realCurves : Scalar.Curves ℝ where
  sqrt := Real.sqrt
  cos := Real.cos
  sin := Real.sin

/-- A free particle in the origin. -/
noncomputable def light : Particle ℝ := ⟨0, ⟨0, 0⟩, ⟨0, 0⟩, ⟨0, 0⟩, 1, 1, ⟨1, 1, 1, 1⟩⟩

/-- A free particle four length units away, three times as heavy. -/
noncomputable def heavy : Particle ℝ := ⟨1, ⟨4, 0⟩, ⟨0, 0⟩, ⟨0, 0⟩, 1, 3, ⟨1, 1, 1, 1⟩⟩

/-- A joint of half the full stiffness that is one unit long, after one that is switched off. -/
noncomputable def elastic : ParamBag ℝ :=
  ⟨true, #[.scalar 0.5, .scalar 1, .array #[-1, 0], .array #[0, 1], .array #[0, 1]]⟩

/-- A registry with nothing but this joint. -/
noncomputable def elasticOnly : Registry ℝ :=
  letI := realCurves
  ⟨#[⟨Joints.module, elastic⟩], none⟩

/-- The two particles, over a grid of one cell. -/
noncomputable def stretched : Scene ℝ where
  particles := #[light, heavy]
  grid := .ofBounds ⟨⟨0, 0⟩, 1, 1, 1⟩
  table := .create reservedSlots

theorem linked_elastic :
    letI := realCurves
    Joints.Linked elastic 0 1 1 := by
  let := realCurves
  have hzero : (Scalar.toWord (0 : ℝ) : UInt32) = 0 := by
    change UInt32.ofNat (min (Scalar.truncate (0 : ℝ)).toNat 4294967295) = 0
    rw [← Int.cast_zero, Scalar.truncate_intCast]
    rfl
  have hone : (Scalar.toWord (1 : ℝ) : UInt32) = 1 := by
    change UInt32.ofNat (min (Scalar.truncate (1 : ℝ)).toNat 4294967295) = 1
    rw [← Int.cast_one, Scalar.truncate_intCast]
    rfl
  have hjoints : Joints.joints elastic = [((-1, 0), 0), ((0, 1), 1)] := rfl
  have hoff (index : UInt32) : Joints.partner ((-1, 0) : ℝ × ℝ) index = none :=
    if_pos (.inl (by norm_num))
  have hfirst : Joints.partner ((0, 1) : ℝ × ℝ) 0 = some 1 := by
    simp [Joints.partner, hzero, hone]
  refine ⟨(0, 1), ?_, hfirst⟩
  rw [hjoints, List.filter_cons_of_neg (by rw [hoff, hoff]; decide),
    List.filter_cons_of_pos (by rw [hfirst]; rfl), List.filter_nil]

/-- After three passes an eighth of the deviation is left, and the centre of mass is where it was. -/
theorem linked_converge_stretched :
    letI := realCurves
    ∃ last p' q', stretched.constrain elasticOnly {} 1 3 = .ok last ∧
      last.particles[0]? = some p' ∧ last.particles[1]? = some q' ∧
      (p'.position - q'.position).length = 11 / 8 ∧ p'.position.x + q'.position.x * 3 = 12 := by
  let := realCurves
  have hallocate : BucketGrid.allocate stretched.grid.bounds = .ok stretched.grid := rfl
  have hready : stretched.Ready :=
    ⟨(BucketGrid.Reachable.allocate hallocate).tidy, by decide, by decide, by decide, by decide⟩
  have hroots : Scalar.Curves.Rooted ℝ := fun x hx => ⟨x.sqrt_nonneg, Real.mul_self_sqrt hx⟩
  have hlength : (light.position - heavy.position).length = 4 := by
    have hdot : (light.position - heavy.position).dot (light.position - heavy.position) = 4 * 4 := by
      norm_num [Vec2.dot, light, heavy]
    rw [Vec2.length, hdot]
    exact hroots.sqrt_mul_self (by norm_num)
  have hsmall {x : ℝ} (hx : 1 ≤ x) : coincident < x :=
    lt_of_lt_of_le (by unfold coincident; norm_num) hx
  have hnames : elasticOnly.names.Nodup := List.nodup_singleton _
  have hp : stretched.particles[0]? = some light := rfl
  have hq : stretched.particles[1]? = some heavy := rfl
  have hstiff : elastic.get Joints.stiffness = 0.5 := rfl
  have hothers : ∀ earlier < 3, ∀ began, stretched.Begins elasticOnly {} 1 earlier began →
      ∀ turn ∈ began.turns elasticOnly {} .constrain 1,
        turn.entry.module.name ≠ (Joints.module : Module ℝ).name →
          turn.Spares 0 ∧ turn.Spares 1 := by
    intro earlier _ began _ turn hturn hname
    have hmem := (List.mem_filter.1 (entry_mem_of_mem_turnsFrom hturn)).1
    have hentry : turn.entry = ⟨Joints.module, elastic⟩ := List.mem_singleton.1 hmem
    exact absurd (congrArg (fun entry => entry.module.name) hentry) hname
  obtain ⟨last, p', q', hlast, hp', hq', happroached⟩ :=
    linked_converge hroots hnames (Array.mem_singleton.2 rfl) rfl (by norm_num [hstiff])
      (hsmall le_rfl) linked_elastic hready (by decide) hp (by norm_num [light]) hq
      (by norm_num [heavy]) (.inl (by norm_num [light])) (hlength ▸ hsmall (by norm_num)) 3 hothers
  refine ⟨last, p', q', hlast, hp', hq', ?_, ?_⟩
  · rw [happroached.distance_eq, hlength, hstiff]
    norm_num
  · have hcentre := congrArg Vec2.x
      (happroached.centre_eq (by norm_num [light]) (by norm_num [heavy]))
    norm_num [light, heavy] at hcentre
    exact hcentre

end Scene

end ParticleDynamics
