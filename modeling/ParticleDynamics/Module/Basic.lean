import ParticleDynamics.Module.Fragment
import ParticleDynamics.Module.Phase
import ParticleDynamics.Module.Procedure

/-!
# Modules

A module is one force, or one way of drawing, in a form the rest of the library can work with. It is
written once and interpreted twice: `Module.run` says what happens to a particle on the host,
`Module.fragment` gives the text that does the same on the device.

Nothing is assumed about a module beyond these fields. In particular the two interpretations need
not agree, a phase may be implemented on one side only, and a name need not be usable in a program;
building a program reports what is wrong.
-/

namespace ParticleDynamics

/-- A force or a way of drawing. -/
structure Module (α : Type) where
  /-- the name, unique in a registry and used in the names of the generated program -/
  name : String
  /-- in which phases it takes part -/
  role : Role
  /-- its parameters, in the order in which they are packed -/
  params : List (ParamDecl α) := []
  /-- the scratch fields it owns -/
  fields : List String := []
  /-- what it does with a particle in a phase -/
  run : Phase → View α → Procedure α Unit
  /-- program text that its fragments share, if any -/
  helpers : Emission (Option String) := .done none
  /-- the program text for a phase, or nothing when there is none -/
  fragment : Phase → Emission (Option String)

namespace Module

variable {α : Type}

/-- The keys of the parameters. -/
def keys (m : Module α) : List (ParamKey α) := ParamKey.ofDecls m.params

/-- The name with the declarations, from which a block is laid out. -/
def declared (m : Module α) : String × List (ParamDecl α) := (m.name, m.params)

/-- The name with the fields, from which the scratch table is laid out. -/
def scratch (m : Module α) : String × List String := (m.name, m.fields)

/-- The texts for some phases, one after the other. -/
def bodies (m : Module α) : List Phase → Emission (List (Phase × Option String))
  | [] => .done []
  | phase :: rest =>
    (m.fragment phase).bind fun body =>
      (m.bodies rest).bind fun others => .done ((phase, body) :: others)

/-- All texts of a module: the one that its fragments share, and then one for each of its phases.
They are put together over one list of messages. -/
def texts (m : Module α) : Emission (Option String × List (Phase × Option String)) :=
  m.helpers.bind fun helpers =>
    (m.bodies m.role.phases.toList).bind fun bodies => .done (helpers, bodies)

end Module

end ParticleDynamics
