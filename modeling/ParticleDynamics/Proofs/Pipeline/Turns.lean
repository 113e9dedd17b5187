import Mathlib.Data.List.Basic
import ParticleDynamics.Pipeline.Scene

/-!
# One module's turn

In a pass the modules have their turns one after the other. During its turn a module is called for
one index after the other, and whether it is called for an index depends on the scene at that
**moment**: what happened before in the same pass may have killed the particle. Since a call changes
no particle but its own, the module is called for those that were alive when its turn began
(`Pass.called_eq`).

Every fact about a turn comes from what one visit does (`Pass.visit_cases`), carried along the turn
by `Pass.moment_induction`.
-/

namespace ParticleDynamics

/-- A call of a module for one particle, with what the module is shown. -/
structure Call (α : Type) where
  /-- the module that is called -/
  module : Module α
  /-- the phase -/
  phase : Phase
  /-- where the particle stands in the live array -/
  index : Nat
  /-- what the module sees -/
  view : View α

/-- How the journal records a call. -/
def Call.event {α : Type} (call : Call α) : Event α :=
  .call call.module.name call.phase call.index call.view.snapshot

namespace Pass

variable {α : Type} [Scalar α] {pass : Pass α}

/-- The call for the particle at an index. -/
def callAt (pass : Pass α) (index : Nat) : Call α :=
  ⟨pass.module, pass.phase, index, pass.view index⟩

/-! ## One visit -/

/-- The scene that the call for a particle leaves, apart from the journal: what the module does, run
on what the call shows it. -/
def acted (pass : Pass α) (scene : Scene α) (index : Nat) (p : Particle α) : Scene α :=
  let call := pass.callAt index
  let reach := ((call.module.run call.phase call.view).run pass.site
    { particle := p, table := scene.table }).2
  { scene with
    particles := scene.particles.modify index fun _ => reach.particle
    table := reach.table }

/-- Recording a call adds it to the events, whatever came of it. -/
theorem events_record (failed : Bool) (index : Nat) (outcome : Except String Unit)
    (notes : Array (Note α)) (journal : Journal α) :
    (pass.record failed index outcome notes journal).2.events =
      journal.events.push (pass.callAt index).event := by
  cases outcome <;> rfl

/-- **All that a visit can do**: the place of a live particle leads to a call, and any other to
nothing at all. -/
theorem visit_cases (failed : Bool) (scene : Scene α) (index : Nat) :
    (Particle.isLiveAt scene.particles index = false ∧
      pass.visit (failed, scene) index = (failed, scene)) ∨
    ∃ p journal, scene.particles[index]? = some p ∧ p.isAlive = true ∧
      (pass.visit (failed, scene) index).2 = { pass.acted scene index p with journal := journal } ∧
      journal.events = scene.journal.events.push (pass.callAt index).event := by
  cases hp : scene.particles[index]? with
  | none =>
    refine .inl ⟨by rw [Particle.isLiveAt, hp, Option.any_none], ?_⟩
    simp only [visit, hp]
  | some p =>
    cases halive : p.isAlive with
    | false => exact .inl ⟨by rw [Particle.isLiveAt, hp, Option.any_some, halive],
        visit_of_dead hp halive⟩
    | true =>
      let reply := pass.call index p scene.table
      refine .inr ⟨p, (pass.record failed index reply.1 reply.2.notes scene.journal).2, rfl, halive,
        ?_, events_record ..⟩
      simp only [visit, hp, halive, if_true]
      rfl

/-- A visit leaves the neighbour index alone. -/
theorem grid_visit (state : Bool × Scene α) (index : Nat) :
    (pass.visit state index).2.grid = state.2.grid := by
  obtain ⟨failed, scene⟩ := state
  rcases pass.visit_cases failed scene index with ⟨-, h⟩ | ⟨p, journal, -, -, h, -⟩
  · rw [h]
  · rw [h]
    rfl

/-! ## The moments of a turn -/

/-- The scene when the turn of the module comes to an index. -/
def moment (pass : Pass α) (scene : Scene α) (index : Nat) : Scene α :=
  pass.visitAll (List.range index) scene

theorem moment_succ (scene : Scene α) (index : Nat) :
    ∃ failed, pass.moment scene (index + 1) =
      (pass.visit (failed, pass.moment scene index) index).2 := by
  refine ⟨((List.range index).foldl pass.visit (false, scene)).1, ?_⟩
  rw [moment, visitAll, List.range_succ, List.foldl_append]
  rfl

/-- **From one moment to the next** the module is called if the particle is alive by then, and the
call leaves the next moment; otherwise nothing happens. -/
theorem moment_succ_cases (scene : Scene α) (index : Nat) :
    (Particle.isLiveAt (pass.moment scene index).particles index = false ∧
      pass.moment scene (index + 1) = pass.moment scene index) ∨
    ∃ p journal, (pass.moment scene index).particles[index]? = some p ∧ p.isAlive = true ∧
      pass.moment scene (index + 1) =
        { pass.acted (pass.moment scene index) index p with journal := journal } ∧
      journal.events =
        (pass.moment scene index).journal.events.push (pass.callAt index).event := by
  obtain ⟨failed, hsucc⟩ := pass.moment_succ scene index
  rw [hsucc]
  rcases pass.visit_cases failed (pass.moment scene index) index with ⟨hdead, h⟩ | hcall
  · exact .inl ⟨hdead, by rw [h]⟩
  · exact .inr hcall

/-- **What visits keep holds at every moment** of a turn. -/
theorem moment_induction {motive : Nat → Scene α → Prop} {scene : Scene α} (hzero : motive 0 scene)
    (hvisit : ∀ failed current index, motive index current →
      motive (index + 1) (pass.visit (failed, current) index).2) (index : Nat) :
    motive index (pass.moment scene index) := by
  induction index with
  | zero => exact hzero
  | succ index ih =>
    obtain ⟨failed, hsucc⟩ := pass.moment_succ scene index
    rw [hsucc]
    exact hvisit failed _ index ih

/-- A turn leaves the neighbour index alone. -/
theorem grid_moment (scene : Scene α) (index : Nat) : (pass.moment scene index).grid = scene.grid :=
  moment_induction (motive := fun _ current => current.grid = scene.grid) rfl
    (fun _ _ _ ih => (grid_visit ..).trans ih) index

/-- A turn neither adds nor removes a particle. -/
theorem size_moment (scene : Scene α) (index : Nat) :
    (pass.moment scene index).particles.size = scene.particles.size :=
  moment_induction (motive := fun _ current => current.particles.size = scene.particles.size) rfl
    (fun _ _ _ ih => (size_visit ..).trans ih) index

/-- **A particle is as it was until the turn comes to it.** A turn goes through the particles in
ascending order, and a visit changes the record of no other particle. -/
theorem getElem?_moment (scene : Scene α) {index other : Nat} (h : index ≤ other) :
    (pass.moment scene index).particles[other]? = scene.particles[other]? := by
  have hall : ∀ other, index ≤ other →
      (pass.moment scene index).particles[other]? = scene.particles[other]? :=
    moment_induction
      (motive := fun index current =>
        ∀ other, index ≤ other → current.particles[other]? = scene.particles[other]?)
      (fun _ _ => rfl)
      (fun failed current index ih other hother => by
        rw [getElem?_visit_ne (Nat.ne_of_lt hother)]
        exact ih other (Nat.le_of_lt hother))
      index
  exact hall other h

/-- **A turn leaves of a particle what the call for it leaves.** Visits before it may have changed
the table, which is why the table of that moment stands here. -/
theorem getElem?_turn (scene : Scene α) {index : Nat} {p : Particle α}
    (hp : scene.particles[index]? = some p) (halive : p.isAlive = true) :
    (pass.turn scene).particles[index]? =
      some (pass.call index p (pass.moment scene index).table).2.particle := by
  have hlater (more : Nat) : (pass.moment scene (index + 1 + more)).particles[index]? =
      (pass.moment scene (index + 1)).particles[index]? := by
    induction more with
    | zero => rfl
    | succ more ih =>
      obtain ⟨failed, hsucc⟩ := pass.moment_succ scene (index + 1 + more)
      rw [← Nat.add_assoc, hsucc, getElem?_visit_ne (by omega), ih]
  have hnow := (pass.getElem?_moment scene (Nat.le_refl index)).trans hp
  obtain ⟨more, hmore⟩ := Nat.exists_eq_add_of_le (Array.getElem?_eq_some_iff.1 hp).1
  have hturn : pass.turn scene = pass.moment scene (index + 1 + more) :=
    congrArg (pass.moment scene) hmore
  rw [hturn, hlater]
  rcases pass.moment_succ_cases scene index with ⟨hdead, -⟩ | ⟨q, journal, hq, -, hnext, -⟩
  · rw [Particle.isLiveAt, hnow, Option.any_some, halive] at hdead
    cases hdead
  · obtain rfl := Option.some.inj (hnow.symm.trans hq)
    rw [hnext]
    exact (Array.getElem?_modify ..).trans (by rw [if_pos rfl, hnow, Option.map_some]; rfl)

/-! ## Who is called -/

/-- The indices that the module is called for in its turn: those of the particles that are alive at
the moment the turn comes to them. -/
def called (pass : Pass α) (scene : Scene α) : List Nat :=
  (List.range scene.particles.size).filter fun index =>
    Particle.isLiveAt (pass.moment scene index).particles index

/-- The calls of the turn. -/
def calls (pass : Pass α) (scene : Scene α) : List (Call α) :=
  (pass.called scene).map pass.callAt

/-- What the journal holds at a moment of the turn. -/
theorem events_moment (scene : Scene α) (index : Nat) :
    (pass.moment scene index).journal.events.toList = scene.journal.events.toList ++
      (((List.range index).filter fun earlier =>
        Particle.isLiveAt (pass.moment scene earlier).particles earlier).map
          pass.callAt).map Call.event := by
  induction index with
  | zero => exact (List.append_nil _).symm
  | succ index ih =>
    -- what was called earlier is settled: only the last index is decided at this moment
    rw [List.range_succ, List.filter_append, List.filter_singleton, List.map_append,
      List.map_append, ← List.append_assoc, ← ih]
    rcases pass.moment_succ_cases scene index with
      ⟨hdead, hnext⟩ | ⟨p, journal, hp, halive, hnext, hevents⟩
    · rw [hnext, hdead]
      exact (List.append_nil _).symm
    · have hlive : Particle.isLiveAt (pass.moment scene index).particles index = true := by
        rw [Particle.isLiveAt, hp, Option.any_some, halive]
      rw [hnext, hlive]
      exact (congrArg Array.toList hevents).trans Array.toList_push

/-- **The journal grows by the calls of the turn**, in order. -/
theorem events_turn (scene : Scene α) :
    (pass.turn scene).journal.events.toList =
      scene.journal.events.toList ++ (pass.calls scene).map Call.event :=
  events_moment scene _

end Pass

end ParticleDynamics
