import ParticleDynamics.Proofs.Force.Footprints
import ParticleDynamics.Proofs.Grid.Thinning
import ParticleDynamics.Proofs.Pipeline.Schedule

/-!
# Turns in any order

A module is called for one particle after the other, and each call finds the scratch table as the
calls before it have left it. If the calls of the module stay in footprints that are clear of each
other, this makes no difference: two visits in a row may change places (`Pass.affect_comm`), and so
the turn may go through the particles in any order (`Pass.visitAll_perm`). Only the journal tells
the orders apart.

All standard modules are of this kind (`Scene.turn_in_any_order`).
-/

namespace ParticleDynamics

variable {α : Type} [Scalar α]

/-- The scene without what happened so far. -/
def Scene.unrecorded (scene : Scene α) : Scene α := { scene with journal := {} }

namespace Pass

variable {pass : Pass α}

/-! ## Visits without the journal -/

/-- What a visit does, apart from the journal. -/
def affect (pass : Pass α) (scene : Scene α) (index : Nat) : Scene α :=
  match scene.particles[index]? with
  | none => scene
  | some p => if p.isAlive then pass.acted scene index p else scene

theorem affect_of_dead (scene : Scene α) {index : Nat}
    (h : Particle.isLiveAt scene.particles index = false) : pass.affect scene index = scene := by
  rw [affect]
  split
  next => rfl
  next p hp =>
    rw [Particle.isLiveAt, hp, Option.any_some] at h
    rw [h, if_neg Bool.false_ne_true]

theorem affect_of_alive (scene : Scene α) {index : Nat} {p : Particle α}
    (hp : scene.particles[index]? = some p) (halive : p.isAlive = true) :
    pass.affect scene index = pass.acted scene index p := by
  rw [affect, hp]
  exact if_pos halive

theorem acted_eq (scene : Scene α) (index : Nat) (p : Particle α) :
    pass.acted scene index p =
      { scene with
        particles := scene.particles.modify index fun _ =>
          (pass.call index p scene.table).2.particle
        table := (pass.call index p scene.table).2.table } := rfl

/-- A visit leaves what it does, whatever is recorded. -/
theorem unrecorded_visit (state : Bool × Scene α) (index : Nat) :
    (pass.visit state index).2.unrecorded = pass.affect state.2.unrecorded index := by
  obtain ⟨failed, scene⟩ := state
  rcases pass.visit_cases failed scene index with ⟨hdead, h⟩ | ⟨p, journal, hp, halive, h, -⟩
  · rw [h, affect_of_dead scene.unrecorded hdead]
  · rw [h, affect_of_alive scene.unrecorded hp halive]
    rfl

theorem unrecorded_visitAll (order : List Nat) (scene : Scene α) :
    (pass.visitAll order scene).unrecorded = order.foldl pass.affect scene.unrecorded :=
  (List.foldl_hom (fun state : Bool × Scene α => state.2.unrecorded)
    (fun state index => (unrecorded_visit state index).symm)).symm

/-! ## Two visits -/

/-- A call after that for another particle comes to the same end and leaves the same particle as
before it, and the two calls leave the same table in either order. -/
theorem call_after (hapart : pass.module.KeepsApart pass.phase pass.layout) {index other : Nat}
    (h : index.toUInt32 ≠ other.toUInt32) (p q : Particle α) (table : Table α) :
    pass.call index p (pass.call other q table).2.table =
      ((pass.call index p table).1,
        (pass.call index p table).2.on
          (pass.call other q (pass.call index p table).2.table).2.table) := by
  obtain ⟨footprint, hclear, hstays⟩ := hapart
  exact (hstays (pass.view index)).run_after (hstays (pass.view other)) (hclear _ _ h)
    (hclear _ _ h.symm) { particle := p, table := table } { particle := q, table := table }

/-- A visit to one particle leaves the records of the others alone. -/
theorem getElem?_affect_ne (scene : Scene α) {index other : Nat} (h : index ≠ other) :
    (pass.affect scene index).particles[other]? = scene.particles[other]? := by
  rw [affect]
  split
  next => rfl
  next p hp =>
    split
    next => exact (Array.getElem?_modify ..).trans (if_neg h)
    next => rfl

/-- **Two visits may change places.** Both write to their own record and to cells that the other one
neither reads nor writes. -/
theorem affect_comm (hapart : pass.module.KeepsApart pass.phase pass.layout) {index other : Nat}
    (h : index.toUInt32 ≠ other.toUInt32) (scene : Scene α) :
    pass.affect (pass.affect scene index) other = pass.affect (pass.affect scene other) index := by
  have hne : index ≠ other := fun hsame => h (congrArg Nat.toUInt32 hsame)
  -- neither visit decides whether the other one is to a dead particle
  have hindex := pass.getElem?_affect_ne scene hne.symm
  have hother := pass.getElem?_affect_ne scene hne
  cases hlive : Particle.isLiveAt scene.particles index with
  | false =>
    have hdead : Particle.isLiveAt (pass.affect scene other).particles index = false := by
      rw [Particle.isLiveAt, hindex]
      exact hlive
    rw [affect_of_dead _ hlive, affect_of_dead _ hdead]
  | true =>
    cases hlive' : Particle.isLiveAt scene.particles other with
    | false =>
      have hdead : Particle.isLiveAt (pass.affect scene index).particles other = false := by
        rw [Particle.isLiveAt, hother]
        exact hlive'
      rw [affect_of_dead _ hlive', affect_of_dead _ hdead]
    | true =>
      obtain ⟨p, hp, halive⟩ := Particle.exists_of_isLiveAt hlive
      obtain ⟨q, hq, halive'⟩ := Particle.exists_of_isLiveAt hlive'
      rw [affect_of_alive _ (hother.trans hq) halive', affect_of_alive _ (hindex.trans hp) halive,
        affect_of_alive _ hp halive, affect_of_alive _ hq halive']
      have hcall := congrArg Prod.snd (pass.call_after hapart h p q scene.table)
      have hcall' := congrArg Prod.snd (pass.call_after hapart h.symm q p scene.table)
      rw [acted_eq, acted_eq, acted_eq, acted_eq]
      dsimp only
      rw [congrArg Procedure.Reach.particle hcall, congrArg Procedure.Reach.particle hcall',
        congrArg Procedure.Reach.table hcall', modify_comm _ hne]
      rfl

/-! ## The whole turn -/

/-- **A turn may go through the particles in any order**, if the calls of the module are clear of
each other. A permutation is made of exchanges of neighbours, and for these it is the lemma
above. -/
theorem visitAll_perm (hapart : pass.module.KeepsApart pass.phase pass.layout)
    {order order' : List Nat} (horder : order.Perm order') (hfew : ∀ index ∈ order, index < 2 ^ 32)
    (scene : Scene α) :
    (pass.visitAll order scene).unrecorded = (pass.visitAll order' scene).unrecorded := by
  rw [unrecorded_visitAll, unrecorded_visitAll]
  -- being few, the indices are different words when they are different
  refine horder.foldl_eq' (fun index hindex other hother scene => ?_) _
  by_cases hsame : index = other
  · rw [hsame]
  · refine pass.affect_comm hapart (fun hword => hsame ?_) scene
    rw [← toNat_toUInt32 (hfew index hindex), hword, toNat_toUInt32 (hfew other hother)]

end Pass

namespace Scene

/-- **Turns of standard modules in any order.** Whatever scene a pass began with, and whatever scene
the turn of a module comes to: calling the module for the live particles in any order of their
indices leaves the same records and the same scratch table as calling it from low to high. -/
theorem turn_in_any_order (registry : Registry α)
    (hstandard : ∀ entry ∈ registry.entries, entry.module ∈ Module.standard)
    (began current : Scene α) (phase : Phase) (dt : α) {entry : Entry α}
    (hentry : entry ∈ registry.entries) (hfew : current.particles.size ≤ 2 ^ 32)
    {order : List Nat} (horder : order.Perm (List.range current.particles.size)) :
    let pass := began.passOf registry.scratch phase dt entry
    (pass.visitAll order current).particles = (pass.turn current).particles ∧
      (pass.visitAll order current).table = (pass.turn current).table := by
  intro pass
  have hapart : pass.module.KeepsApart pass.phase pass.layout :=
    Module.keepsApart_of_mem_standard (hstandard entry hentry) phase registry.scratch
  have hindices (index : Nat) (hindex : index ∈ order) : index < 2 ^ 32 :=
    Nat.lt_of_lt_of_le (List.mem_range.1 (horder.mem_iff.1 hindex)) hfew
  have hsame := pass.visitAll_perm hapart horder hindices current
  have hparticles := congrArg Scene.particles hsame
  have htable := congrArg Scene.table hsame
  exact ⟨hparticles, htable⟩

/-! ### A turn of the fluid -/

/-- The fluid with its initial values. -/
def water : Entry Single := ⟨Fluid.module, ⟨true, #[.scalar 20.0, .scalar 1, .scalar 50.0]⟩⟩

/-- The fluid alone. -/
def wet : Registry Single := { entries := #[water] }

/-- The state pass of two particles in one place may as well begin with the second. -/
theorem turn_in_any_order_wet :
    ∃ began, (Pipeline.still.start Pipeline.couple wet.scratch Pipeline.still.grid).rebuild =
        .ok began ∧
      let pass := began.passOf wet.scratch .state 0 water
      (pass.visitAll [1, 0] began).particles = (pass.turn began).particles ∧
        (pass.visitAll [1, 0] began).table = (pass.turn began).table := by
  have hready :
      (Pipeline.still.start Pipeline.couple wet.scratch Pipeline.still.grid).Ready := by
    have hallocate : BucketGrid.allocate Pipeline.still.grid.bounds = .ok Pipeline.still.grid := rfl
    exact ⟨(BucketGrid.Reachable.allocate hallocate).tidy,
      by decide, by decide, by decide, by decide⟩
  obtain ⟨began, hbegan, -⟩ := hready.exists_rebuild
  have hsize : began.particles.size = 2 := by
    rw [particles_of_rebuild hbegan]
    rfl
  have hstandard : ∀ entry ∈ wet.entries, entry.module ∈ Module.standard := by
    intro entry hentry
    rw [Array.mem_singleton.1 hentry]
    exact List.mem_cons_of_mem _ List.mem_cons_self
  have horder : [1, 0].Perm (List.range began.particles.size) := by
    rw [hsize]
    decide
  exact ⟨began, hbegan, turn_in_any_order wet hstandard began began .state 0
    (Array.mem_singleton.2 rfl) (by omega) horder⟩

/-- Each of the two then has itself and the other in its density. -/
example : ((Pipeline.still.start Pipeline.couple wet.scratch Pipeline.still.grid).rebuild >>=
    fun began =>
      let after := (began.passOf wet.scratch .state 0 water).visitAll [1, 0] began
      .ok (after.table.get? 0 4, after.table.get? 1 4)) = .ok (some 2.0, some 2.0) := by
  decide +kernel

end Scene

end ParticleDynamics
