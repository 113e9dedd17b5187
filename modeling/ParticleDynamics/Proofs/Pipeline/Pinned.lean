import ParticleDynamics.Proofs.Force.Pinned
import ParticleDynamics.Proofs.Pipeline.Runs

/-!
# Pinned particles stay where they are

A module may spare a pinned particle because it sees that the particle is pinned, or because it saw
so when the pass began. As long as no call changes a mass, these come to the same. So masses and
pinned particles have to be looked at together: a call keeps both, if the calls before it in the
same pass have kept both (`Scene.keepsPinned_visit`).

The apply phase may give a pinned particle an acceleration, and the store may hand over one that has
a velocity. The integration clears both without moving the particle, and the passes after it do not
touch the particle at all. So after every step the pinned particles are where they have always been,
and at rest (`Pipeline.pinned_stay`).

An index is a word, and only below `2^32` does it find the particle that it stands for. An orderly
store holds fewer than that, as its identities are words too (`Store.Orderly.size_le`).
-/

namespace ParticleDynamics

/-- The particles that are pinned, in their order. -/
def pinned {α : Type} [Scalar α] (particles : Array (Particle α)) : List (Particle α) :=
  particles.toList.filter Particle.isPinned

variable {α : Type} [Scalar α]

theorem Particle.isPinned_congr {p q : Particle α} (h : q.mass = p.mass) :
    q.isPinned = p.isPinned := by
  rw [isPinned, h, isPinned]

namespace Scene

variable {registry : Registry α} {layout : ScratchLayout} {phase : Phase} {dt : α} {β : Type}
  {f : Particle α → β}

/-! ## Masses and pinned particles -/

/-- From one scene to another no mass has changed, and the pinned particles have kept what `f` shows
of them. -/
structure KeepsPinned (f : Particle α → β) (earlier later : Scene α) : Prop where
  size_eq : later.particles.size = earlier.particles.size
  record : ∀ index p, index < 2 ^ 32 → earlier.particles[index]? = some p →
    ∃ q, later.particles[index]? = some q ∧ q.mass = p.mass ∧ (p.isPinned = true → f q = f p)

namespace KeepsPinned

theorem of_particles_eq {earlier later : Scene α} (h : later.particles = earlier.particles) :
    KeepsPinned f earlier later :=
  ⟨congrArg Array.size h, fun _ p _ hp => ⟨p, h ▸ hp, rfl, fun _ => rfl⟩⟩

theorem trans {first second third : Scene α} (h : KeepsPinned f first second)
    (h' : KeepsPinned f second third) : KeepsPinned f first third := by
  refine ⟨h'.size_eq.trans h.size_eq, fun index p hindex hp => ?_⟩
  obtain ⟨q, hq, hmass, hpq⟩ := h.record index p hindex hp
  obtain ⟨r, hr, hmass', hqr⟩ := h'.record index q hindex hq
  refine ⟨r, hr, hmass'.trans hmass, fun hpinned => (hqr ?_).trans (hpq hpinned)⟩
  rw [Particle.isPinned_congr hmass, hpinned]

/-- Whoever is pinned now was pinned before. -/
theorem isPinned_earlier {earlier later : Scene α} (h : KeepsPinned f earlier later) {index : Nat}
    (hindex : index < 2 ^ 32) {q : Particle α} (hq : later.particles[index]? = some q)
    (hpinned : q.isPinned = true) : (earlier.particles[index]?).any Particle.isPinned = true := by
  have hlt : index < earlier.particles.size := h.size_eq ▸ (Array.getElem?_eq_some_iff.1 hq).1
  have hp : earlier.particles[index]? = some earlier.particles[index] := Array.getElem?_eq_getElem hlt
  obtain ⟨q', hq', hmass, -⟩ := h.record index _ hindex hp
  obtain rfl := Option.some.inj (hq.symm.trans hq')
  rw [hp, Option.any_some, ← Particle.isPinned_congr hmass, hpinned]

/-- **A change to one particle** that keeps its mass, and what is to be kept if it is pinned. -/
theorem of_modify {earlier later : Scene α} {index : Nat} {p q : Particle α}
    (hp : earlier.particles[index]? = some p)
    (hparticles : later.particles = earlier.particles.modify index fun _ => q)
    (hmass : q.mass = p.mass) (hpq : index < 2 ^ 32 → p.isPinned = true → f q = f p) :
    KeepsPinned f earlier later := by
  refine ⟨by rw [hparticles, Array.size_modify], fun other p' hother hp' => ?_⟩
  rw [hparticles, Array.getElem?_modify]
  split
  next heq =>
    subst heq
    obtain rfl := Option.some.inj (hp.symm.trans hp')
    exact ⟨q, by rw [hp, Option.map_some], hmass, hpq hother⟩
  next => exact ⟨p', hp', rfl, fun _ => rfl⟩

/-- **The pinned particles of two scenes**, one by one. -/
theorem map_pinned {earlier later : Scene α} (h : KeepsPinned f earlier later)
    (hfew : earlier.particles.size ≤ 2 ^ 32) :
    (pinned later.particles).map f = (pinned earlier.particles).map f := by
  let shown (p : Particle α) : Option β := if p.isPinned then some (f p) else none
  have hpinned (particles : Array (Particle α)) :
      (pinned particles).map f = (particles.map shown).toList.filterMap id := by
    rw [pinned, ← List.filterMap_eq_map, List.filterMap_filter, Array.toList_map,
      List.filterMap_map]
    rfl
  have hshown : later.particles.map shown = earlier.particles.map shown := by
    refine Array.ext_getElem? fun index => ?_
    rw [Array.getElem?_map, Array.getElem?_map]
    by_cases hindex : index < earlier.particles.size
    · have hp := Array.getElem?_eq_getElem hindex
      obtain ⟨q, hq, hmass, hpq⟩ := h.record index _ (Nat.lt_of_lt_of_le hindex hfew) hp
      rw [hq, hp, Option.map_some, Option.map_some]
      refine congrArg some ?_
      dsimp only [shown]
      rw [Particle.isPinned_congr hmass]
      exact ite_congr rfl (fun hpinned => congrArg some (hpq hpinned)) fun _ => rfl
    · rw [Array.getElem?_eq_none (h.size_eq ▸ Nat.not_lt.1 hindex),
        Array.getElem?_eq_none (Nat.not_lt.1 hindex)]
  rw [hpinned, hpinned, hshown]

end KeepsPinned

/-! ## One action after the other -/

/-- **A call keeps masses and spares the pinned**, if this is what has happened since the pass
began. -/
theorem keepsPinned_visit {entry : Entry α} (hspares : entry.module.SparesPinned)
    (hf : ∀ p q : Particle α, p.Spared phase q → f q = f p) {began scene : Scene α}
    (hbegan : KeepsPinned f began scene) (failed : Bool) (index : Nat) :
    KeepsPinned f scene
      ((began.passOf layout phase dt entry).visit (failed, scene) index).2 := by
  let pass := began.passOf layout phase dt entry
  rcases pass.visit_cases failed scene index with ⟨-, hvisit⟩ | ⟨p, journal, hp, -, hvisit, -⟩
  · rw [hvisit]
    exact .of_particles_eq rfl
  · rw [hvisit]
    have hkept := hspares.kept phase (pass.view index) pass.site
      { particle := p, table := scene.table }
    refine .of_modify hp rfl hkept.mass_eq fun hindex hpinned => hf _ _ (hkept.spared hpinned ?_)
    -- what the module sees of the particle is how it was when the pass began
    have hword : index.toUInt32.toNat = index := UInt32.toNat_ofNat_of_lt' hindex
    change (began.particles[index.toUInt32.toNat]?).any Particle.isPinned = true
    rw [hword]
    exact hbegan.isPinned_earlier hindex hp hpinned

/-- **A pass keeps masses and spares the pinned.** -/
theorem keepsPinned_runPhase (hspares : ∀ entry ∈ registry.entries, entry.module.SparesPinned)
    (hf : ∀ p q : Particle α, p.Spared phase q → f q = f p) (began : Scene α) :
    KeepsPinned f began (began.runPhase registry layout phase dt) := by
  rw [runPhase]
  refine List.foldlRecOn (motive := fun current => KeepsPinned f began current) _ _
    (.of_particles_eq rfl) fun current ih entry hentry => ?_
  have hmem := Array.mem_toList_iff.1 (List.mem_filter.1 hentry).1
  exact Pass.moment_induction (motive := fun _ current => KeepsPinned f began current) ih
    (fun failed _ index ih =>
      ih.trans (keepsPinned_visit (hspares entry hmem) hf ih failed index)) _

/-- Outside the apply phase a pass does not touch the pinned. -/
theorem keepsPinned_runPhase_id (hspares : ∀ entry ∈ registry.entries, entry.module.SparesPinned)
    (hphase : phase ≠ .apply) (began : Scene α) :
    KeepsPinned id began (began.runPhase registry layout phase dt) :=
  keepsPinned_runPhase hspares (fun _ _ h => h.eq hphase) began

/-- Passes of constraints do not touch the pinned. -/
theorem Relaxes.keepsPinned (hspares : ∀ entry ∈ registry.entries, entry.module.SparesPinned)
    {scene last : Scene α} {course : List (Scene α)}
    (h : Relaxes registry layout dt scene course last) : KeepsPinned id scene last := by
  induction h with
  | rest scene => exact .of_particles_eq rfl
  | pass hbegan _ ih =>
    exact ((KeepsPinned.of_particles_eq (particles_of_rebuild hbegan)).trans
      (keepsPinned_runPhase_id hspares (by decide) _)).trans ih

theorem atRest_eq_of_spared {p q : Particle α} (h : p.Spared phase q) : q.atRest = p.atRest := by
  rw [h.but_acceleration]
  rfl

/-- **Apart from their motion the pinned stay as they are** through a step. -/
theorem lasting_keepsPinned (hspares : ∀ entry ∈ registry.entries, entry.module.SparesPinned) :
    Lasting registry dt (KeepsPinned (α := α) Particle.atRest) where
  refl _ := .of_particles_eq rfl
  trans h h' := h.trans h'
  visit began phase {entry} hentry failed scene index hbegan :=
    keepsPinned_visit (hspares entry hentry) (fun _ _ h => atRest_eq_of_spared h) hbegan failed index
  integrateAt scene index := by
    rcases scene.integrateAt_cases dt index with ⟨-, hsame⟩ | ⟨p, table, hp, -, hmoved, -⟩
    · rw [hsame]
      exact .of_particles_eq rfl
    · rw [hmoved]
      refine .of_modify hp rfl (p.mass_integrate dt) fun _ hpinned => ?_
      rw [Particle.integrate, if_pos hpinned]
      rfl
  integrated _ := .of_particles_eq rfl
  rebuild hbegan := .of_particles_eq (particles_of_rebuild hbegan)

end Scene

/-! ## Through a step -/

/-- Whoever is pinned is alive, and not removed. -/
theorem pinned_filter_isAlive (particles : Array (Particle Single)) :
    pinned (particles.filter Particle.isAlive) = pinned particles := by
  rw [pinned, Array.toList_filter, List.filter_filter]
  refine List.filter_congr fun p _ => ?_
  cases hpinned : p.isPinned with
  | false => rfl
  | true => rw [Particle.isAlive_of_isPinned hpinned, Bool.and_true]

/-- **The integration brings the pinned to rest**, where they are. -/
theorem pinned_integrate (scene : Scene Single) (dt : Single) :
    pinned (scene.integrate dt).particles = (pinned scene.particles).map Particle.atRest := by
  let moved (p : Particle Single) : Particle Single := if p.isAlive then p.integrate dt else p
  have hsame : Particle.isPinned ∘ moved = Particle.isPinned := by
    refine funext fun p => Particle.isPinned_congr ?_
    dsimp only [moved]
    split
    next => exact p.mass_integrate dt
    next => rfl
  rw [pinned, scene.particles_integrate, Array.toList_map, List.filter_map]
  change ((scene.particles.toList.filter (Particle.isPinned ∘ moved)).map moved) = _
  rw [hsame]
  refine List.map_congr_left fun p hp => ?_
  have hpinned := (List.mem_filter.1 hp).2
  dsimp only [moved]
  rw [if_pos (Particle.isAlive_of_isPinned hpinned), Particle.integrate, if_pos hpinned]
  rfl

namespace Pipeline

variable {p : Pipeline Single} {store : Store Single} {registry : Registry Single} {dt : Single}

namespace Course

variable (course : Course p store registry dt)
  (hspares : ∀ entry ∈ registry.entries, entry.module.SparesPinned)

include hspares

/-- Apart from their motion the pinned are the same at every moment of a step. -/
theorem pinned_moment (hfew : store.size ≤ 2 ^ 32) :
    ∀ moment ∈ course.moments,
      (pinned moment.particles).map Particle.atRest =
        (pinned store.particles).map Particle.atRest := by
  have hlasting : Scene.Lasting registry dt (Scene.KeepsPinned Particle.atRest) :=
    Scene.lasting_keepsPinned hspares
  have hlater := (List.pairwise_cons.1 (hlasting.pairwise_moments course)).1
  intro moment hmoment
  rw [← course.particles_state]
  rcases List.mem_cons.1 hmoment with rfl | hmoment
  · rfl
  · exact (hlater moment hmoment).map_pinned (course.particles_state ▸ hfew)

/-- **The pinned are at rest when a step ends.** -/
theorem pinned_last (hfew : store.size ≤ 2 ^ 32) :
    pinned course.last.particles = (pinned store.particles).map Particle.atRest := by
  have hlasting : Scene.Lasting registry dt (Scene.KeepsPinned Particle.atRest) :=
    Scene.lasting_keepsPinned hspares
  have hstate : course.state.particles.size = store.size := by
    rw [course.particles_state]
    rfl
  -- up to the integration the pinned may be set in motion
  have happlied : Scene.KeepsPinned Particle.atRest course.state course.applied := by
    have hstate := hlasting.runPhase course.state .state
    rw [← course.apply_eq] at hstate
    exact hlasting.trans hstate (hlasting.runPhase course.apply .apply)
  have hintegrated : pinned course.integrated.particles =
      (pinned store.particles).map Particle.atRest := by
    rw [course.integrated_eq, ← course.particles_state]
    exact (pinned_integrate course.applied dt).trans (happlied.map_pinned (hstate ▸ hfew))
  -- after it they are not touched any more
  have hlast : Scene.KeepsPinned id course.integrated course.last :=
    (course.relaxes.keepsPinned hspares).trans
      ((Scene.KeepsPinned.of_particles_eq (Scene.particles_of_rebuild course.rebuild_relaxed)).trans
        (Scene.keepsPinned_runPhase_id hspares (by decide) course.correct))
  have hsize : course.integrated.particles.size ≤ 2 ^ 32 := by
    rw [← hlast.size_eq, course.size_last]
    exact hfew
  rw [← hintegrated, ← List.map_id (pinned course.last.particles), hlast.map_pinned hsize,
    List.map_id]

end Course

/-- A step leaves the pinned at rest. -/
theorem pinned_advance {frame : Frame Single} {stepped : Stepped Single}
    (hspares : ∀ entry ∈ registry.entries, entry.module.SparesPinned) (hfew : store.size ≤ 2 ^ 32)
    (hstep : p.advance store registry frame = .ok stepped) :
    stepped.store.size ≤ store.size ∧
      pinned stepped.store.particles = (pinned store.particles).map Particle.atRest := by
  obtain ⟨course, rfl⟩ := exists_course_finish hstep
  refine ⟨?_, (pinned_filter_isAlive _).trans (course.pinned_last hspares hfew)⟩
  rw [← course.size_last]
  exact Array.size_filter_le

/-- **The pinned that steps lead to** are those of the beginning, apart from their motion. -/
theorem Stepping.pinned {current : Pipeline Single} {left : Store Single}
    (h : Stepping registry p store current left)
    (hspares : ∀ entry ∈ registry.entries, entry.module.SparesPinned) (hfew : store.size ≤ 2 ^ 32) :
    left.size ≤ store.size ∧ (pinned left.particles).map Particle.atRest =
      (pinned store.particles).map Particle.atRest := by
  induction h with
  | start => exact ⟨Nat.le_refl _, rfl⟩
  | step _ hstep ih =>
    obtain ⟨hsize, hrest⟩ := ih
    obtain ⟨hsize', hrest'⟩ := pinned_advance hspares (hsize.trans hfew) hstep
    refine ⟨hsize'.trans hsize, ?_⟩
    rw [hrest', List.map_map, ← hrest]
    rfl

/-- **Pinned particles never move.** Take standard modules, in any order, with any parameter values
and some of them switched off, a cap of fewer than `2^15` cells on an axis, and a store of no more
particles than there are indices. Then a pipeline can be created and every run goes through. After
each step of it the pinned particles are those of the beginning, in their order and at rest: with
the same identity, position, size, mass and colour, and with neither velocity nor acceleration. And
at every moment on the way they differ from these at most in their motion. -/
theorem pinned_stay (registry : Registry Single)
    (hstandard : ∀ entry ∈ registry.entries, entry.module ∈ Module.standard)
    (settings : Settings Single) (hcap : settings.hostGridCells.toNat < 2 ^ 15)
    (camera : Camera Single) (store : Store Single) (hfew : store.size ≤ 2 ^ 32) :
    ∃ p, create settings camera = .ok p ∧
      (∀ frames, ∃ steps, play registry frames p store = .ok steps ∧
        steps.length = frames.length ∧
        ∀ stepped ∈ steps,
          pinned stepped.store.particles = (pinned store.particles).map Particle.atRest) ∧
      ∀ current left, Stepping registry p store current left →
        ∀ (frame : Frame Single) (course : Course (current.framed frame) left registry frame.dt),
          ∀ moment ∈ course.moments,
            (pinned moment.particles).map Particle.atRest =
              (pinned store.particles).map Particle.atRest := by
  have hspares : ∀ entry ∈ registry.entries, entry.module.SparesPinned := fun entry hentry =>
    Module.sparesPinned_of_mem_standard Particle.immovable_single (hstandard entry hentry)
  obtain ⟨p, hcreate, hwithin⟩ := exists_create hcap rfl camera
  refine ⟨p, hcreate, fun frames => ?_, fun current left hstepping frame course moment hmoment => ?_⟩
  · obtain ⟨steps, hsteps, hlength⟩ := exists_play frames fun current left frame hstepping =>
      (hstepping.within hcap hwithin).exists_advance hcap left registry frame
    refine ⟨steps, hsteps, hlength, fun stepped hmem => ?_⟩
    obtain ⟨current, left, frame, -, hstepping, hstep⟩ := exists_of_mem_play hsteps stepped hmem
    obtain ⟨hsize, hrest⟩ := hstepping.pinned hspares hfew
    rw [(pinned_advance hspares (hsize.trans hfew) hstep).2, hrest]
  · obtain ⟨hsize, hrest⟩ := hstepping.pinned hspares hfew
    rw [course.pinned_moment hspares (hsize.trans hfew) moment hmoment, hrest]

/-! ### A pinned particle under a falling one -/

/-- A pinned particle with a velocity, and a free one that overlaps it. -/
def anchored : Store Single where
  particles := #[
    { (Birth.standard (α := Single)).withId 0 with mass := -1, velocity := ⟨3.0, 0⟩ },
    { (Birth.standard (α := Single)).withId 1 with position := ⟨0, 1⟩ }]
  issued := 2

/-- Gravity and collisions. -/
def falling : Registry Single where
  entries := #[⟨Environment.module, ⟨true, #[.scalar 0, .scalar (-10.0), .scalar 1]⟩⟩,
    ⟨Collisions.module, ⟨true, #[.scalar 0.5, .scalar 10.0]⟩⟩]

/-- Steps of different durations leave the pinned particle where it is, without its velocity. -/
theorem pinned_stay_anchored :
    ∃ p steps, create .standard .standard = .ok p ∧
      play falling [⟨.standard, 2, 0.1⟩, ⟨.standard, 1, -3.0⟩] p anchored = .ok steps ∧
      steps.length = 2 ∧ ∀ stepped ∈ steps, pinned stepped.store.particles =
        [{ (Birth.standard (α := Single)).withId 0 with mass := -1 }] := by
  have hstandard : ∀ entry ∈ falling.entries, entry.module ∈ Module.standard := by
    intro entry hentry
    have hmodule : entry.module ∈ [Environment.module, Collisions.module] :=
      List.mem_map_of_mem (f := Entry.module) (Array.mem_toList_iff.2 hentry)
    rcases List.mem_cons.1 hmodule with heq | hmodule
    · rw [heq]
      exact List.mem_cons_self
    · rw [List.mem_singleton.1 hmodule]
      exact .tail _ (.tail _ (.tail _ List.mem_cons_self))
  obtain ⟨p, hcreate, hplay, -⟩ := pinned_stay falling hstandard .standard (by decide) .standard
    anchored (by decide)
  obtain ⟨steps, hsteps, hlength, hrest⟩ := hplay [⟨.standard, 2, 0.1⟩, ⟨.standard, 1, -3.0⟩]
  have hanchor : (pinned anchored.particles).map Particle.atRest =
      [{ (Birth.standard (α := Single)).withId 0 with mass := -1 }] := by decide
  exact ⟨p, steps, hcreate, hsteps, hlength, fun stepped hmem => (hrest stepped hmem).trans hanchor⟩

end Pipeline

end ParticleDynamics
