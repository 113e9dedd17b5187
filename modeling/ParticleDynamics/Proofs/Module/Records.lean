import ParticleDynamics.Proofs.Module.Procedure

/-!
# What a procedure leaves of a particle

Which record a call leaves can be read off its tree without running it, as long as nothing depends
on the answers that it gets: a procedure **leaves** a particle in a certain way
(`Procedure.Leaves`) when it does so whatever its operations are answered, and wherever it stops
with a fault or a crash.

A procedure that never writes its particle is **silent** (`Procedure.Silent`), and silent parts of
a sequence can be passed over (`Procedure.Silent.leaves_bind`).
-/

namespace ParticleDynamics

namespace Procedure

variable {α β γ : Type}

/-- The record that a procedure leaves has a property, whatever its operations are answered, when
it begins with the given record. -/
def Leaves (post : Particle α → Prop) : Procedure α β → Particle α → Prop
  | done _, particle => post particle
  | fault _, particle => post particle
  | crash _, particle => post particle
  | read next, particle => (next particle).Leaves post particle
  | write written next, _ => next.Leaves post written
  | readField _ _ _ next, particle => ∀ answer, (next answer).Leaves post particle
  | writeField _ _ _ next, particle => ∀ answer, (next answer).Leaves post particle
  | readReserved _ _ next, particle => ∀ answer, (next answer).Leaves post particle
  | writeReserved _ _ _ next, particle => ∀ answer, (next answer).Leaves post particle
  | note _ next, particle => next.Leaves post particle

/-- A procedure that never writes its particle. -/
def Silent (p : Procedure α β) : Prop := ∀ particle, p.Leaves (· = particle) particle

namespace Leaves

variable {post : Particle α → Prop}

/-- **What a procedure leaves whatever it is answered, its runs leave.** What a procedure reads of
the table is unknown here, and so is whether its writes succeed. -/
theorem run {p : Procedure α β} (site : Site) {reach : Reach α} (h : p.Leaves post reach.particle) :
    post (p.run site reach).2.particle := by
  induction p generalizing reach with
  | done result => exact h
  | fault message => exact h
  | crash text => exact h
  | read next ih => exact ih _ h
  | write particle next ih => exact ih h
  | readField owner name row next ih => exact ih _ (h _)
  | writeField name row value next ih =>
    rw [Procedure.run]
    split
    next slot hslot => exact ih _ ((particle_put reach row slot value).symm ▸ h _)
    next => exact ih _ (h _)
  | readReserved row slot next ih => exact ih _ (h _)
  | writeReserved row slot value next ih =>
    exact ih _ ((particle_put reach row slot.slot value).symm ▸ h _)
  | note n next ih => exact ih h

theorem mono {post' : Particle α → Prop} (hpost : ∀ q, post q → post' q) {p : Procedure α β}
    {particle : Particle α} (h : p.Leaves post particle) : p.Leaves post' particle := by
  induction p generalizing particle with
  | done result => exact hpost _ h
  | fault message => exact hpost _ h
  | crash text => exact hpost _ h
  | read next ih => exact ih _ h
  | write written next ih => exact ih h
  | readField owner name row next ih => exact fun answer => ih _ (h answer)
  | writeField name row value next ih => exact fun answer => ih _ (h answer)
  | readReserved row slot next ih => exact fun answer => ih _ (h answer)
  | writeReserved row slot value next ih => exact fun answer => ih _ (h answer)
  | note n next ih => exact ih h

/-- **A sequence** may stop after its first part, or go on with its second part from the record that
the first one left. -/
theorem bind {p : Procedure α β} {f : β → Procedure α γ} {particle : Particle α}
    (h : p.Leaves (fun q => post q ∧ ∀ result, (f result).Leaves post q) particle) :
    (p.bind f).Leaves post particle := by
  induction p generalizing particle with
  | done result => exact h.2 result
  | fault message => exact h.1
  | crash text => exact h.1
  | read next ih => exact ih _ h
  | write written next ih => exact ih h
  | readField owner name row next ih => exact fun answer => ih _ (h answer)
  | writeField name row value next ih => exact fun answer => ih _ (h answer)
  | readReserved row slot next ih => exact fun answer => ih _ (h answer)
  | writeReserved row slot value next ih => exact fun answer => ih _ (h answer)
  | note n next ih => exact ih h

end Leaves

namespace Silent

/-- **Passing over a silent part**: the sequence goes on with the same record, or stops with it. -/
theorem leaves_bind {post : Particle α → Prop} {p : Procedure α β} (hp : p.Silent)
    {f : β → Procedure α γ} {particle : Particle α} (hpost : post particle)
    (hf : ∀ result, (f result).Leaves post particle) : (p.bind f).Leaves post particle := by
  refine .bind ((hp particle).mono fun q hq => ?_)
  subst hq
  exact ⟨hpost, hf⟩

theorem bind {p : Procedure α β} (hp : p.Silent) {f : β → Procedure α γ}
    (hf : ∀ result, (f result).Silent) : (p.bind f).Silent :=
  fun particle => hp.leaves_bind rfl fun result => hf result particle

/-- Passing on an answer writes nothing. -/
theorem require (answer : Except String β) : (require answer : Procedure α β).Silent := by
  cases answer with
  | ok result => exact fun _ => rfl
  | error message => exact fun _ => rfl

/-- Relying on a computation writes nothing. -/
theorem sound (answer : Except Breach β) : (sound answer : Procedure α β).Silent := by
  cases answer with
  | ok result => exact fun _ => rfl
  | error breach => exact fun _ => rfl

/-- A silent procedure for each of some values, one after the other. -/
theorem foldlM {step : γ → β → Procedure α γ} (hstep : ∀ result item, (step result item).Silent)
    (items : List β) (start : γ) : (items.foldlM step start).Silent := by
  induction items generalizing start with
  | nil => exact fun _ => rfl
  | cons item rest ih =>
    rw [List.foldlM_cons]
    exact (hstep start item).bind ih

/-! ### The operations under their own names -/

theorem self : (self : Procedure α (Particle α)).Silent := fun _ => rfl

theorem neighbors [Scalar α] (v : View α) (radius : α) : (neighbors v radius).Silent :=
  self.bind fun _ => sound _

theorem fieldOf (name : String) (row : UInt32) : (fieldOf name row : Procedure α α).Silent :=
  fun particle answer => require answer particle

theorem setFieldOf (name : String) (row : UInt32) (value : α) : (setFieldOf name row value).Silent :=
  fun particle answer => require answer particle

theorem readPair (row : UInt32) (x y : Reserved) :
    (readPair row x y : Procedure α (Vec2 α)).Silent := by
  have hslot (slot : Reserved) : (readReserved row slot Procedure.require : Procedure α α).Silent :=
    fun particle answer => require answer particle
  exact (hslot x).bind fun _ => (hslot y).bind fun _ _ => rfl

end Silent

end Procedure

end ParticleDynamics
