import Mathlib.Order.Basic
import ParticleDynamics.Proofs.Pipeline.Schedule

/-!
# The moments of a step

A step goes from moment to moment: a module is called for a particle, a particle is integrated, the
neighbour index is rebuilt. The **moments** of a step (`Pipeline.Course.moments`) are the scenes in
between, from the one with which the state pass begins to the one that the correct pass leaves.

Whatever relates the scenes before and after each such action, and can be carried on, relates every
earlier moment of a step to every later one (`Scene.Lasting.pairwise_moments`). Facts about a whole
step follow from this by looking at one action at a time.
-/

namespace ParticleDynamics

variable {α : Type} [Scalar α]

namespace Pass

/-- The moments of a turn, before the first visit and after each one. -/
def moments (pass : Pass α) (scene : Scene α) : List (Scene α) :=
  (List.range (scene.particles.size + 1)).map (pass.moment scene)

end Pass

namespace Scene

variable {registry : Registry α} {phase : Phase} {dt : α}

/-! ## Moments of passes -/

/-- The moments of the turns of the given modules, in a pass that began with the scene `began`. -/
def momentsFrom (began : Scene α) (layout : ScratchLayout) (phase : Phase) (dt : α) :
    List (Entry α) → Scene α → List (Scene α)
  | [], _ => []
  | entry :: rest, current =>
    (began.passOf layout phase dt entry).moments current ++
      momentsFrom began layout phase dt rest ((began.passOf layout phase dt entry).turn current)

/-- The moments of a pass that begins with a scene. -/
def moments (began : Scene α) (registry : Registry α) (phase : Phase) (dt : α) :
    List (Scene α) :=
  began.momentsFrom registry.scratch phase dt (registry.entries.toList.filter (takesPart phase))
    began

/-- The moments of the integration, before the first particle and after each one. -/
def integrationMoments (scene : Scene α) (dt : α) : List (Scene α) :=
  (List.range (scene.particles.size + 1)).map fun count =>
    (List.range count).foldl (integrateAt dt) scene

/-! ## What lasts -/

/-- A relation between earlier and later moments that every action of a step establishes. When a
module is called, it relates already the beginning of the pass to the moment of the call. -/
structure Lasting (registry : Registry α) (dt : α) (R : Scene α → Scene α → Prop) : Prop where
  refl : ∀ scene, R scene scene
  trans : ∀ {first second third}, R first second → R second third → R first third
  visit : ∀ (began : Scene α) (phase : Phase) {entry : Entry α}, entry ∈ registry.entries →
    ∀ failed scene index, R began scene →
      R scene ((began.passOf registry.scratch phase dt entry).visit (failed, scene) index).2
  integrateAt : ∀ scene index, R scene (scene.integrateAt dt index)
  integrated : ∀ scene : Scene α,
    R scene { scene with journal.events := scene.journal.events.push .integration }
  rebuild : ∀ {scene began}, scene.rebuild = .ok began → R scene began

/-- Moments on the way from one scene to another, each related to all that come later. -/
structure Along (R : Scene α → Scene α → Prop) (first : Scene α) (moments : List (Scene α))
    (last : Scene α) : Prop where
  through : R first last
  of_first : ∀ moment ∈ moments, R first moment
  to_last : ∀ moment ∈ moments, R moment last
  pairwise : moments.Pairwise R

omit [Scalar α] in
/-- A stretch of the way without moments of its own. -/
theorem Along.nil {R : Scene α → Scene α → Prop} {first last : Scene α} (hR : R first last) :
    Along R first [] last :=
  ⟨hR, List.forall_mem_nil _, List.forall_mem_nil _, .nil⟩

namespace Lasting

variable {R : Scene α → Scene α → Prop} (h : Lasting registry dt R)

include h

/-- From one stretch of the way to the next. -/
theorem append {first between last : Scene α} {moments later : List (Scene α)}
    (hfirst : Along R first moments between) (hlater : Along R between later last) :
    Along R first (moments ++ later) last where
  through := h.trans hfirst.through hlater.through
  of_first := List.forall_mem_append.2 ⟨hfirst.of_first, fun moment hmoment =>
    h.trans hfirst.through (hlater.of_first moment hmoment)⟩
  to_last := List.forall_mem_append.2 ⟨fun moment hmoment =>
    h.trans (hfirst.to_last moment hmoment) hlater.through, hlater.to_last⟩
  pairwise := List.pairwise_append.2 ⟨hfirst.pairwise, hlater.pairwise,
    fun earlier hearlier moment hmoment =>
      h.trans (hfirst.to_last earlier hearlier) (hlater.of_first moment hmoment)⟩

/-- The way through a sequence of scenes, one action after the other. -/
theorem along_range (scenes : Nat → Scene α)
    (hsucc : ∀ n, R (scenes 0) (scenes n) → R (scenes n) (scenes (n + 1))) (count : Nat) :
    Along R (scenes 0) ((List.range (count + 1)).map scenes) (scenes count) := by
  have hzero (n : Nat) : R (scenes 0) (scenes n) := by
    induction n with
    | zero => exact h.refl _
    | succ n ih => exact h.trans ih (hsucc n ih)
  have hle {m n : Nat} (hmn : m ≤ n) : R (scenes m) (scenes n) := by
    induction hmn with
    | refl => exact h.refl _
    | step _ ih => exact h.trans ih (hsucc _ (hzero _))
  refine ⟨hle (Nat.zero_le count), List.forall_mem_map.2 fun n _ => hle (Nat.zero_le n),
    List.forall_mem_map.2 fun n hn => hle (Nat.le_of_lt_succ (List.mem_range.1 hn)), ?_⟩
  exact List.pairwise_map.2 (List.pairwise_lt_range.imp fun hlt => hle (Nat.le_of_lt hlt))

omit h in
/-- Two things that last also last together. -/
theorem and {R' : Scene α → Scene α → Prop} (h : Lasting registry dt R)
    (h' : Lasting registry dt R') :
    Lasting registry dt fun earlier later => R earlier later ∧ R' earlier later where
  refl scene := ⟨h.refl scene, h'.refl scene⟩
  trans hfirst hlater := ⟨h.trans hfirst.1 hlater.1, h'.trans hfirst.2 hlater.2⟩
  visit began phase {_} hentry failed scene index hbegan :=
    ⟨h.visit began phase hentry failed scene index hbegan.1,
      h'.visit began phase hentry failed scene index hbegan.2⟩
  integrateAt scene index := ⟨h.integrateAt scene index, h'.integrateAt scene index⟩
  integrated scene := ⟨h.integrated scene, h'.integrated scene⟩
  rebuild {_ _} hbegan := ⟨h.rebuild hbegan, h'.rebuild hbegan⟩

/-! ### Through a step -/

/-- The way through the turn of a module. -/
theorem along_turn (began : Scene α) (phase : Phase) {entry : Entry α}
    (hentry : entry ∈ registry.entries) {scene : Scene α} (hbegan : R began scene) :
    Along R scene ((began.passOf registry.scratch phase dt entry).moments scene)
      ((began.passOf registry.scratch phase dt entry).turn scene) := by
  let pass := began.passOf registry.scratch phase dt entry
  refine h.along_range (pass.moment scene) (fun index hmoment => ?_) scene.particles.size
  obtain ⟨failed, hsucc⟩ := pass.moment_succ scene index
  rw [hsucc]
  exact h.visit began phase hentry failed _ index (h.trans hbegan hmoment)

theorem along_momentsFrom (began : Scene α) (phase : Phase) {entries : List (Entry α)}
    (hentries : ∀ entry ∈ entries, entry ∈ registry.entries) {current : Scene α}
    (hbegan : R began current) :
    Along R current (began.momentsFrom registry.scratch phase dt entries current)
      (entries.foldl
        (fun current entry => (began.passOf registry.scratch phase dt entry).turn current)
        current) := by
  induction entries generalizing current with
  | nil => exact .nil (h.refl current)
  | cons entry rest ih =>
    obtain ⟨hentry, hrest⟩ := List.forall_mem_cons.1 hentries
    have hturn := h.along_turn began phase hentry hbegan
    exact h.append hturn (ih hrest (h.trans hbegan hturn.through))

/-- The way through a pass. -/
theorem along_moments (began : Scene α) (phase : Phase) :
    Along R began (began.moments registry phase dt)
      (began.runPhase registry registry.scratch phase dt) :=
  h.along_momentsFrom began phase
    (fun _ hentry => Array.mem_toList_iff.1 (List.mem_filter.1 hentry).1) (h.refl began)

theorem runPhase (scene : Scene α) (phase : Phase) :
    R scene (scene.runPhase registry registry.scratch phase dt) :=
  (h.along_moments scene phase).through

/-- The way through the integration. -/
theorem along_integrationMoments (scene : Scene α) :
    Along R scene (scene.integrationMoments dt) (scene.integrate dt) := by
  have hsucc (count : Nat) : R ((List.range count).foldl (Scene.integrateAt dt) scene)
      ((List.range (count + 1)).foldl (Scene.integrateAt dt) scene) := by
    rw [List.range_succ, List.foldl_append]
    exact h.integrateAt _ _
  rw [← List.append_nil (scene.integrationMoments dt)]
  exact h.append (h.along_range _ (fun count _ => hsucc count) scene.particles.size)
    (.nil (h.integrated _))

/-- The way through the passes of constraints. -/
theorem along_relaxes {scene last : Scene α} {course : List (Scene α)}
    (hrelaxes : Relaxes registry registry.scratch dt scene course last) :
    Along R scene (course.flatMap fun began => began.moments registry .constrain dt) last := by
  induction hrelaxes with
  | rest scene => exact .nil (h.refl scene)
  | pass hbegan _ ih =>
    rw [List.flatMap_cons]
    exact h.append (h.append (.nil (h.rebuild hbegan)) (h.along_moments _ .constrain)) ih

/-- Each pass of constraints begins with the rebuilt index of some later scene. -/
theorem exists_of_relaxes {scene last : Scene α} {course : List (Scene α)}
    (hrelaxes : Relaxes registry registry.scratch dt scene course last) :
    ∀ began ∈ course, ∃ before, R scene before ∧ before.rebuild = .ok began := by
  induction hrelaxes with
  | rest scene => exact List.forall_mem_nil _
  | @pass scene began last later hbegan _ ih =>
    refine List.forall_mem_cons.2 ⟨⟨scene, h.refl scene, hbegan⟩, fun other hother => ?_⟩
    obtain ⟨before, hbefore, hrebuild⟩ := ih other hother
    exact ⟨before, h.trans (h.trans (h.rebuild hbegan) (h.runPhase began .constrain)) hbefore,
      hrebuild⟩

end Lasting

end Scene

namespace Pipeline

namespace Course

variable {p : Pipeline α} {store : Store α} {registry : Registry α} {dt : α}

/-- The moments of a step, from the scene with which the state pass begins to the one that the
correct pass leaves. -/
def moments (course : Course p store registry dt) : List (Scene α) :=
  course.state :: (course.state.moments registry .state dt ++
    course.apply.moments registry .apply dt ++
    (course.apply.runPhase registry registry.scratch .apply dt).integrationMoments dt ++
    (course.constrain.flatMap fun began => began.moments registry .constrain dt) ++
    course.correct.moments registry .correct dt ++ [course.last])

variable {R : Scene α → Scene α → Prop}

/-- The way from the state pass through the integration. -/
theorem along_integrated (course : Course p store registry dt) (h : Scene.Lasting registry dt R) :
    Scene.Along R course.state (course.state.moments registry .state dt ++
      course.apply.moments registry .apply dt ++
      (course.apply.runPhase registry registry.scratch .apply dt).integrationMoments dt)
      course.integrated := by
  have happly := h.along_moments course.state .state
  have hintegrated := h.along_integrationMoments
    (course.apply.runPhase registry registry.scratch .apply dt)
  rw [← course.apply_eq] at happly
  rw [← course.integrated_eq] at hintegrated
  exact h.append (h.append happly (h.along_moments course.apply .apply)) hintegrated

/-- The way through a step. -/
theorem along_moments (course : Course p store registry dt) (h : Scene.Lasting registry dt R) :
    Scene.Along R course.state (course.state.moments registry .state dt ++
      course.apply.moments registry .apply dt ++
      (course.apply.runPhase registry registry.scratch .apply dt).integrationMoments dt ++
      (course.constrain.flatMap fun began => began.moments registry .constrain dt) ++
      course.correct.moments registry .correct dt) course.last := by
  have hrelaxed := h.append (course.along_integrated h) (h.along_relaxes course.relaxes)
  have hcorrect := h.append (.nil (h.rebuild course.rebuild_relaxed))
    (h.along_moments course.correct .correct)
  exact h.append hrelaxed hcorrect

end Course

end Pipeline

omit [Scalar α] in
/-- A particle replaced by one that looks the same leaves the look of all particles as it is. -/
theorem map_modify_of_eq {γ : Type} {f : Particle α → γ} {particles : Array (Particle α)}
    {index : Nat} {p q : Particle α} (hp : particles[index]? = some p) (hf : f q = f p) :
    (particles.modify index fun _ => q).map f = particles.map f := by
  apply Array.ext_getElem?
  intro other
  rw [Array.getElem?_map, Array.getElem?_map, Array.getElem?_modify]
  split
  next heq =>
    subst heq
    rw [hp, Option.map_some, Option.map_some, Option.map_some, hf]
  next => rfl

/-- **What no call and no integration changes of a particle lasts** for all particles through a
step. Identities are lasting in this sense, and so is being alive where no module kills. -/
theorem Scene.lasting_map {γ : Type} {registry : Registry α} {dt : α} {f : Particle α → γ}
    (hcall : ∀ entry ∈ registry.entries, ∀ (phase : Phase) (view : View α)
      (site : Procedure.Site) (reach : Procedure.Reach α),
      f ((entry.module.run phase view).run site reach).2.particle = f reach.particle)
    (hintegrate : ∀ p : Particle α, f (p.integrate dt) = f p) :
    Lasting registry dt fun earlier later =>
      later.particles.map f = earlier.particles.map f where
  refl _ := rfl
  trans hfirst hlater := hlater.trans hfirst
  visit began phase {entry} hentry failed scene index _ := by
    let pass := began.passOf registry.scratch phase dt entry
    rcases pass.visit_cases failed scene index with ⟨-, hvisit⟩ | ⟨p, journal, hp, -, hvisit, -⟩
    · rw [hvisit]
    · rw [hvisit]
      exact map_modify_of_eq hp (hcall entry hentry ..)
  integrateAt scene index := by
    rcases scene.integrateAt_cases dt index with ⟨-, hsame⟩ | ⟨p, table, hp, -, hmoved, -⟩
    · rw [hsame]
    · rw [hmoved]
      exact map_modify_of_eq hp (hintegrate p)
  integrated _ := rfl
  rebuild {scene began} hbegan := by rw [particles_of_rebuild hbegan]

/-- **What every action of a step establishes holds between any two of its moments**, the earlier
one first. The moments of a course are those between two actions, so the relation passes from one to
the next and on to all that follow. -/
theorem Scene.Lasting.pairwise_moments {p : Pipeline α} {store : Store α} {registry : Registry α}
    {dt : α} {R : Scene α → Scene α → Prop} (h : Scene.Lasting registry dt R)
    (course : Pipeline.Course p store registry dt) : course.moments.Pairwise R := by
  have halong := course.along_moments h
  refine List.pairwise_cons.2 ⟨List.forall_mem_append.2 ⟨halong.of_first, ?_⟩,
    List.pairwise_append.2 ⟨halong.pairwise, List.pairwise_singleton .., ?_⟩⟩
  · exact List.forall_mem_singleton.2 halong.through
  · exact fun moment hmoment => List.forall_mem_singleton.2 (halong.to_last moment hmoment)

end ParticleDynamics
