import ParticleDynamics.Demo.Run

/-!
# The demonstration on files

Where the demonstration looks for its settings: in the file at the path that it is given.
-/

namespace ParticleDynamics

/-- What is found in a file. -/
def readStored (path : String) : IO Stored := do
  match ← (IO.FS.Handle.mk path .read).toBaseIO with
  | .error (.permissionDenied ..) => return .unreadable
  | .error _ => return .missing
  | .ok handle =>
    match ← handle.readToEnd.toBaseIO with
    | .error _ => return .unreadable
    | .ok content => return .text content

/-- The demonstration with the given arguments: its status and what it prints. -/
def Demo.runWithFiles (arguments : List String) : IO (UInt32 × String) := do
  let stored ← match (Arguments.parse? arguments).bind Arguments.settings with
    | none => pure .missing
    | some path => readStored path
  return run (fun _ => stored) arguments

end ParticleDynamics
