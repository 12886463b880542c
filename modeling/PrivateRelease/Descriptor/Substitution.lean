import PrivateRelease.Descriptor.Basic

/-!
# Substitution

Replaces the bare names that are bound, all at once; what is put in is not looked at again.
-/

namespace PrivateRelease

/-- Descriptors bound to names; the first binding of a name counts. -/
abbrev Bindings := List (String × Descriptor)

namespace Descriptor

mutual

def substitute (b : Bindings) : Descriptor → Descriptor
  | primitive p => primitive p
  | tuple items => tuple (substituteList b items)
  | generic name [] => (b.lookup name).getD (generic name [])
  | generic name (arg :: args) => generic name (substituteList b (arg :: args))

def substituteList (b : Bindings) : List Descriptor → List Descriptor
  | [] => []
  | d :: ds => substitute b d :: substituteList b ds

end

theorem substituteList_eq_map (b : Bindings) (ds : List Descriptor) :
    substituteList b ds = ds.map (substitute b) := by
  induction ds with
  | nil => simp [substituteList]
  | cons d ds ih => simp [substituteList, ih]

end Descriptor

end PrivateRelease
