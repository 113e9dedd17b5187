import ParticleDynamics.Proofs.Registry.Mirror

/-!
# Operations that change a registry in place

An operation on a registry comes to a result, a registry afterwards and pushes, or is refused. A
program that works in place has one registry and one sink, which it reads and changes statement by
statement, and whatever it has done when it gives up stays done.

`InPlace.act` does each action in this way, in the order that the program has: find the module, find
the parameter, limit the value, write, push. It leaves behind what `Watched.perform` says
(`InPlace.exec_act`). So an action that is refused has not changed anything and has sent nothing to
the sink (`InPlace.eq_of_refused`): everything that can be refused comes before the first change.
-/

namespace ParticleDynamics

open Registry (Watched Action)

/-- A procedure on a registry and what its sink has received, which may give up at any point. -/
abbrev InPlace (α β : Type) := ExceptT Refusal (StateM (Watched α)) β

namespace InPlace

variable {α β γ : Type}

/-- The result of a procedure and what it leaves behind. -/
def exec (p : InPlace α β) (w : Watched α) : Except Refusal β × Watched α := p.run.run w

/-! ## Statements -/

@[simp] theorem exec_pure (result : β) (w : Watched α) :
    exec (pure result) w = (.ok result, w) := rfl

@[simp] theorem exec_get (w : Watched α) : exec (get : InPlace α (Watched α)) w = (.ok w, w) := rfl

@[simp] theorem exec_modify (f : Watched α → Watched α) (w : Watched α) :
    exec (modify f : InPlace α Unit) w = (.ok (), f w) := rfl

/-- Procedures are the same if they leave the same behind. -/
theorem ext {p q : InPlace α β} (h : ∀ w, exec p w = exec q w) : p = q := funext h

/-- What comes after is done on what is left behind, unless the procedure has given up. -/
@[simp] theorem exec_bind (p : InPlace α β) (f : β → InPlace α γ) (w : Watched α) :
    exec (p >>= f) w = match exec p w with
      | (.ok result, left) => exec (f result) left
      | (.error refusal, left) => (.error refusal, left) := by
  simp only [exec, ExceptT.run_bind, StateT.run_bind]
  obtain ⟨result, left⟩ := StateT.run (ExceptT.run p) w
  cases result <;> rfl

/-- Go on with a result, or give up. -/
def orGiveUp (result : Except Refusal β) : InPlace α β := MonadExcept.ofExcept result

@[simp] theorem exec_orGiveUp (result : Except Refusal β) (w : Watched α) :
    exec (orGiveUp result : InPlace α β) w = (result, w) := by
  cases result <;> rfl

/-! ## Pushes -/

section Pushes

variable [Scalar α]

/-- Send pushes to the sink. -/
def send (pushes : Registry α → List (Push α)) : InPlace α Unit :=
  modify fun w => { w with received := w.received ++ pushes w.registry }

/-- Push the block and the arrays of the module at a place. -/
def pushModule (place : Nat) : InPlace α Unit := do
  send fun r => r.pushBlock place
  let w ← get
  match w.registry.bindings.blocks[place]? with
  | some block => block.arrays.forM fun array => send fun r => r.pushArray place array.param
  | none => pure ()

/-- Push everything, one module after the other. -/
def pushAll : InPlace α Unit := do
  let w ← get
  (List.range w.registry.entries.size).forM pushModule

omit [Scalar α] in
/-- Sending leaves the registry as it is. -/
@[simp] theorem exec_send (pushes : Registry α → List (Push α)) (w : Watched α) :
    exec (send pushes) w = (.ok (), { w with received := w.received ++ pushes w.registry }) := rfl

omit [Scalar α] in
/-- A loop in which each round sends something. -/
theorem forM_send (items : List γ) (pushes : γ → Registry α → List (Push α)) :
    (items.forM fun item => send (pushes item)) =
      send fun r => items.flatMap fun item => pushes item r := by
  refine ext fun w => ?_
  induction items generalizing w with
  | nil => simp [List.forM]
  | cons first rest ih =>
    calc exec ((first :: rest).forM fun item => send (pushes item)) w
        = exec (rest.forM fun item => send (pushes item))
            { w with received := w.received ++ pushes first w.registry } := rfl
      _ = _ := by
        rw [ih, exec_send, exec_send, List.append_assoc]
        rfl

theorem pushModule_eq (place : Nat) :
    (pushModule place : InPlace α Unit) = send fun r => r.pushModule place := by
  refine ext fun w => ?_
  simp only [pushModule, forM_send, exec_bind, exec_send, exec_get]
  cases hblock : w.registry.bindings.blocks[place]? with
  | none => simp [Registry.pushModule, hblock]
  | some block => simp [Registry.pushModule, hblock, List.flatMap_map]

theorem pushAll_eq : (pushAll : InPlace α Unit) = send Registry.pushAll := by
  refine ext fun w => ?_
  rw [pushAll, funext pushModule_eq, exec_bind, exec_get]
  dsimp only
  rw [forM_send]
  rfl

end Pushes

/-! ## Actions -/

section Actions

variable [Scalar α]

/-- The place and the entry of the module with a name. -/
def find (name : String) : InPlace α (Nat × Entry α) := do
  let w ← get
  orGiveUp (w.registry.entry name)

/-- The place of a parameter of an entry. -/
def findParam (entry : Entry α) (param : String) (kind : ParamKind) : InPlace α Nat :=
  orGiveUp (entry.paramIndex param kind)

/-- Change the values of the module at a place. -/
def write (place : Nat) (change : ParamBag α → ParamBag α) : InPlace α Unit :=
  modify fun w => { w with registry := w.registry.rewrite place change }

/-- Register a module, unless its name is taken. -/
def register (m : Module α) : InPlace α Unit := do
  let w ← get
  if (w.registry.position? m.name).isSome then throw (.duplicateModule m.name)
  let params ← orGiveUp (Refusal.lift (ParamBag.ofDecls m.params))
  modify fun w => { w with registry := w.registry.push ⟨m, params⟩ }
  pushAll

/-- Limit a value, store it and push the block of its module. -/
def setScalarAt (place param : Nat) (value : α) : InPlace α Unit := do
  let w ← get
  let entry ← orGiveUp (Refusal.lift (fetch w.registry.entries place))
  let decl ← orGiveUp (Refusal.lift (fetch entry.module.params.toArray param))
  let stored ← orGiveUp (Refusal.lift (decl.clamp value))
  write place (·.writeScalar param stored)
  send fun r => r.pushBlock place

/-- Store elements and push the block of their module, which tells their number, and then them. -/
def setArrayAt (place param : Nat) (elements : Array α) : InPlace α Unit := do
  write place (·.writeArray param elements)
  send fun r => r.pushBlock place
  send fun r => r.pushArray place param

/-- Switch a module on or off and push its block. -/
def enableAt (place : Nat) (enabled : Bool) : InPlace α Unit := do
  write place (·.enable enabled)
  send fun r => r.pushBlock place

/-- An action, done in place. -/
def act : Action α → InPlace α Unit
  | .register m => register m
  | .set name param value => do
    let (place, entry) ← find name
    setScalarAt place (← findParam entry param .scalar) value
  | .setArray name param elements => do
    let (place, entry) ← find name
    setArrayAt place (← findParam entry param .array) elements
  | .setEnabled name enabled => do
    let (place, _) ← find name
    enableAt place enabled
  | .setKey name key value => do
    let (place, _) ← find name
    setScalarAt place key.index value
  | .setArrayKey name key elements => do
    let (place, _) ← find name
    setArrayAt place key.index elements
  | .enable name enabled => do
    let (place, _) ← find name
    enableAt place enabled
  | .attach sink => do
    modify fun w => ⟨{ w.registry with sink := some sink }, []⟩
    pushAll

/-- What an operation comes to in place: what it changes and pushes is done, and nothing is done if
it is refused. -/
def comesTo (w : Watched α) : Except Refusal (Change α β) → Except Refusal Unit × Watched α
  | .ok change => (.ok (), ⟨change.registry, w.received ++ change.pushes⟩)
  | .error refusal => (.error refusal, w)

omit [Scalar α] in
/-- What may be refused is refused before anything is done. -/
theorem exec_orGiveUp_bind {result : Except Refusal γ} {p : γ → InPlace α Unit}
    {operation : γ → Except Refusal (Change α β)} {w : Watched α}
    (h : ∀ found, result = .ok found → exec (p found) w = comesTo w (operation found)) :
    exec (orGiveUp result >>= p) w = comesTo w (result >>= operation) := by
  rw [exec_bind, exec_orGiveUp]
  cases result with
  | error refusal => rfl
  | ok found => exact h found rfl

omit [Scalar α] in
/-- A procedure for a module starts with finding it. -/
theorem exec_find_bind {name : String} {p : Nat × Entry α → InPlace α Unit}
    {operation : Nat × Entry α → Except Refusal (Change α β)} {w : Watched α}
    (h : ∀ found, exec (p found) w = comesTo w (operation found)) :
    exec (find name >>= p) w = comesTo w (w.registry.entry name >>= operation) := by
  have hfind : exec (find name) w = (w.registry.entry name, w) := by
    rw [find, exec_bind, exec_get]
    exact exec_orGiveUp _ _
  rw [exec_bind, hfind]
  cases w.registry.entry name with
  | error refusal => rfl
  | ok found => exact h found

theorem exec_enableAt (place : Nat) (enabled : Bool) (w : Watched α) :
    exec (enableAt place enabled) w = comesTo w (.ok (w.registry.enableAt place enabled)) := rfl

theorem exec_setArrayAt (place param : Nat) (elements : Array α) (w : Watched α) :
    exec (setArrayAt place param elements) w =
      comesTo w (.ok (w.registry.writeArrayAt place param elements)) := by
  simp only [setArrayAt, write, exec_bind, exec_modify, exec_send, List.append_assoc]
  rfl

theorem exec_setScalarAt (place param : Nat) (value : α) (w : Watched α) :
    exec (setScalarAt place param value) w =
      comesTo w (w.registry.writeScalarAt place param value) := by
  rw [setScalarAt, exec_bind, exec_get, Registry.writeScalarAt]
  exact exec_orGiveUp_bind fun entry _ => exec_orGiveUp_bind fun decl _ =>
    exec_orGiveUp_bind fun stored _ => rfl

theorem exec_register (m : Module α) (w : Watched α) :
    exec (register m) w = comesTo w (w.registry.register m) := by
  rw [register, exec_bind, exec_get, Registry.register]
  dsimp only
  split
  next htaken => rfl
  next hfree =>
    refine exec_orGiveUp_bind fun params _ => ?_
    rw [pushAll_eq]
    rfl

/-- What an action comes to in place, unless it replaces the sink. -/
theorem comesTo_act {action : Action α} (hstays : action.attaches = false) (w : Watched α) :
    comesTo w (w.registry.act action) =
      ((w.registry.act action).map fun _ => (), w.perform action) := by
  rw [Watched.perform]
  cases w.registry.act action with
  | error refusal => rfl
  | ok change => simp [comesTo, hstays, Except.map]

omit [Scalar α] in
/-- Without its result a write comes to the same. -/
theorem comesTo_withoutResult (w : Watched α) (written : Except Refusal (Change α β)) :
    comesTo w (do return Registry.withoutResult (← written)) = comesTo w written := by
  cases written <;> rfl

omit [Scalar α] in
/-- The handle of a module is its place. -/
theorem handle_bind (r : Registry α) (name : String)
    (operation : Registry.Handle → Except Refusal β) :
    (r.handle name >>= operation) = r.entry name >>= fun found => operation ⟨found.1⟩ := by
  rw [Registry.handle]
  cases r.entry name <;> rfl

/-- **An action done in place comes to what it comes to**, and leaves nothing else behind. -/
theorem exec_act (action : Action α) (w : Watched α) :
    exec (act action) w = ((w.registry.act action).map fun _ => (), w.perform action) := by
  cases action with
  | register m =>
    rw [← comesTo_act rfl]
    exact exec_register m w
  | set name param value =>
    rw [← comesTo_act rfl, Registry.act, comesTo_withoutResult]
    exact exec_find_bind fun found => exec_orGiveUp_bind fun index _ => exec_setScalarAt ..
  | setArray name param elements =>
    rw [← comesTo_act rfl]
    exact exec_find_bind fun found => exec_orGiveUp_bind fun index _ => exec_setArrayAt ..
  | setEnabled name enabled =>
    rw [← comesTo_act rfl]
    exact exec_find_bind fun found => exec_enableAt ..
  -- a handle is found first and has the place with it
  | setKey name key value =>
    rw [← comesTo_act rfl, Registry.act, handle_bind]
    refine exec_find_bind fun found => ?_
    rw [comesTo_withoutResult]
    exact exec_setScalarAt ..
  | setArrayKey name key elements =>
    rw [← comesTo_act rfl, Registry.act, handle_bind]
    exact exec_find_bind fun found => exec_setArrayAt ..
  | enable name enabled =>
    rw [← comesTo_act rfl, Registry.act, handle_bind]
    exact exec_find_bind fun found => exec_enableAt ..
  | attach sink =>
    rw [act, exec_bind, exec_modify, pushAll_eq]
    rfl

/-- **What is refused has changed nothing**, and has sent nothing to the sink. -/
theorem eq_of_refused {action : Action α} {w left : Watched α} {refusal : Refusal}
    (h : exec (act action) w = (.error refusal, left)) : left = w := by
  rw [exec_act] at h
  obtain ⟨hrefused, rfl⟩ := Prod.mk.inj h
  rw [Watched.perform]
  cases hact : w.registry.act action with
  | error refusal => rfl
  | ok change =>
    rw [hact] at hrefused
    cases hrefused

end Actions

end InPlace

end ParticleDynamics
