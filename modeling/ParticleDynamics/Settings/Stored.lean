import ParticleDynamics.Refusal
import ParticleDynamics.Settings.Text

/-!
# Stored settings

Settings are kept in a file. Where there is none, the standard settings apply; a file that cannot be
read, or whose text does not denote settings, is refused.
-/

namespace ParticleDynamics

/-- What is found where settings are kept. -/
inductive Stored where
  /-- nothing -/
  | missing
  /-- something that is not a text -/
  | unreadable
  /-- a text -/
  | text (content : String)
deriving DecidableEq, Repr

namespace Settings

/-- The settings that are stored. -/
def load : Stored → Except Refusal (Settings Single)
  | .missing => .ok standard
  | .unreadable => .error .file
  | .text content =>
    match ofText? content with
    | some s => .ok s
    | none => .error .settings

/-- What is stored after settings were saved. -/
def save (s : Settings Single) : Stored := .text s.toText

end Settings

end ParticleDynamics
