import ParticleDynamics.Breach

/-!
# Refusals

Why an operation on the configuration did not take place. Only mistakes of configuration are
refused; what goes wrong with a single particle during a step is counted and logged instead. A
breach inside such an operation is passed on as what it is.
-/

namespace ParticleDynamics

/-- The causes for which an operation is refused. -/
inductive Refusal where
  /-- no module of this name is registered -/
  | unknownModule (name : String)
  /-- the module has no parameter of this name -/
  | unknownParam (module param : String)
  /-- the parameter is an array where a scalar is wanted, or the other way round -/
  | paramKind (module param : String)
  /-- a module of this name is registered already -/
  | duplicateModule (name : String)
  /-- no program can be built -/
  | program (reason : String)
  /-- a text does not denote settings -/
  | settings
  /-- a file cannot be read or written -/
  | file
  /-- the device cannot do what it is asked -/
  | device (reason : String)
  /-- a precondition is broken -/
  | breach (cause : Breach)
deriving DecidableEq, Repr

namespace Refusal

/-- The text of a refusal. -/
def message : Refusal → String
  | unknownModule name => "unknown module: " ++ name
  | unknownParam module param => "module `" ++ module ++ "` has no parameter `" ++ param ++ "`"
  | paramKind module param =>
    "parameter `" ++ module ++ "." ++ param ++ "` has a different kind (scalar vs array)"
  | duplicateModule name => "module `" ++ name ++ "` is already registered"
  | program reason => "shader generation failed: " ++ reason
  | settings => "invalid settings"
  | file => "io error"
  | device reason => "gpu error: " ++ reason
  | breach cause => cause.message

/-- An operation that can only break, as one that can be refused. -/
def lift {β : Type} : Except Breach β → Except Refusal β
  | .ok result => .ok result
  | .error cause => .error (.breach cause)

end Refusal

end ParticleDynamics
