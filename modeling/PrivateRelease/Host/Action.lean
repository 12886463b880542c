import PrivateRelease.Boundary.Ledger
import PrivateRelease.Host.Failure

/-!
# Actions of the host

An action changes the ledger, whether it succeeds or fails. `andAlways` and `orElseRun` attach the
clean-up that has to happen in any case, or after a failure. A consuming operation hands its inputs
back when it fails.
-/

namespace PrivateRelease.Host

open Boundary (Ledger)

abbrev Action (α : Type) := ExceptT Failure (StateM Ledger) α

namespace Action

variable {α : Type}

def ofExcept (r : Except Failure α) : Action α := fun l => (r, l)

/-- Runs the clean-up whatever the outcome. -/
def andAlways (a : Action α) (cleanUp : StateM Ledger Unit) : Action α := fun l =>
  match a l with
  | (r, l) => (r, (cleanUp l).2)

/-- Runs the clean-up after a failure. -/
def orElseRun (a : Action α) (cleanUp : StateM Ledger Unit) : Action α := fun l =>
  match a l with
  | (.ok x, l) => (.ok x, l)
  | (.error e, l) => (.error e, (cleanUp l).2)

/-- Runs the action for its effect alone. -/
def ignore (a : Action α) : StateM Ledger Unit := fun l => ((), (a l).2)

end Action

/-- Why an operation did not consume its inputs, and the inputs. -/
structure Rejected (ι : Type) where
  failure : Failure
  inputs : ι

/-- An operation that consumes its inputs only if it succeeds. -/
abbrev Consuming (ι α : Type) := ExceptT (Rejected ι) (StateM Ledger) α

namespace Consuming

variable {ι κ α : Type}

/-- Hands the inputs back if the action fails. -/
def ofAction (inputs : ι) (a : Action α) : Consuming ι α := fun l =>
  match a l with
  | (.ok x, l) => (.ok x, l)
  | (.error failure, l) => (.error ⟨failure, inputs⟩, l)

/-- Hands the inputs back in another form. -/
def mapInputs (f : ι → κ) (c : Consuming ι α) : Consuming κ α := fun l =>
  match c l with
  | (.ok x, l) => (.ok x, l)
  | (.error r, l) => (.error ⟨r.failure, f r.inputs⟩, l)

end Consuming

end PrivateRelease.Host
