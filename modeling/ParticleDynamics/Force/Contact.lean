import ParticleDynamics.Direction
import ParticleDynamics.Module.Fragment

/-!
# Contacts

What the pair forces share: the program text for the direction of a contact, which does on the
device what `contactNormal` does on the host.
-/

namespace ParticleDynamics.Contact

/-- The statements that set `n` to the direction from the particle at the index expression `other`
towards this one, given `delta` and `dist`. -/
def normalText (other : String) : List String :=
  ("var n = delta / max(dist, " ++ Fragment.coincidentText ++ ");") ::
  Fragment.block ("if (dist <= " ++ Fragment.coincidentText ++ ")")
    (Fragment.branch ("index < " ++ other)
      ["n = jitter_direction(index, " ++ other ++ ");"]
      ["n = -jitter_direction(" ++ other ++ ", index);"])

end ParticleDynamics.Contact
