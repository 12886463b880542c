import PrivateRelease.Host.Handle
import PrivateRelease.Proofs.Boundary.Evaluation
import PrivateRelease.Proofs.Boundary.Instances

/-!
# Performed calls

What a call does, given the entry point that its symbol names: it returns the payload of the entry's
body, or the failure of the body's error, whose message is given back at once. The calls that take
things back always succeed, so releasing a handle gives back exactly what it owns.
-/

namespace PrivateRelease.Host

open Boundary

/-- The failure that the error of a call stands for. -/
def Failure.ofCall (e : CallError) : Failure := .ofStatus e.status.code (removeNul e.message)

theorem status_code_ne_zero (e : CallError) : e.status.code ≠ 0 := by
  have kinds : ∀ k : Error.Kind, (Status.ofKind k).code ≠ 0 := by
    intro k
    cases k <;> decide
  cases e with
  | failed why => exact kinds why.kind
  | _ => simp [CallError.status, Status.code]

/-- The failure that an error of the library stands for: the message as it is, under the status of
its kind. -/
def Failure.ofCore (e : Error) : Failure :=
  match e.kind with
  | .domainMismatch => .mismatch (.native e.message)
  | .failedMap => .outOfDomain (.native e.message)
  | kind => .native (Status.ofKind kind).code e.message

theorem Failure.ofCall_failed {e : Error} (h : e.WellFormed) : ofCall (.failed e) = ofCore e := by
  have message : (CallError.failed e).message = e.message := rfl
  have status : (CallError.failed e).status = .ofKind e.kind := rfl
  rw [ofCall, message, status, Text.removeNul_eq h.nulFree, ofCore, ofStatus, Status.ofCode?_code]
  cases e.kind <;> rfl

variable [Elementary]

theorem invoke_of_lookup {symbol blob : String} {args : List Payload} {entry : Entry}
    (h : Export.lookup symbol = some entry) (hb : blob.toList.contains '\x00' = false)
    (l : Ledger) : invoke symbol blob args l =
      (.ok (entry.call (.text blob) (.ofList args) l).1,
        (entry.call (.text blob) (.ofList args) l).2) := by
  simp only [invoke, h, hb]
  rfl

theorem perform_of_lookup {symbol blob : String} {args : List Payload} {entry : Entry}
    (h : Export.lookup symbol = some entry) (hb : blob.toList.contains '\x00' = false)
    (l : Ledger) : perform symbol blob args l =
      match entry.body (.text blob) (.ofList args) l with
      | (.ok p, l) => (.ok p, l)
      | (.error e, l) => (.error (.ofCall e), l.withError e.message) := by
  rw [perform, run_bind_ok (invoke_of_lookup h hb l), Entry.call, Envelope.ofCall]
  rcases entry.body (.text blob) (.ofList args) l with ⟨r, l⟩
  cases r with
  | ok p => rfl
  | error e =>
    simp [Envelope.ofFailure, settle, Envelope.isOk, status_code_ne_zero, Failure.ofCall,
      Ledger.allocated, Ledger.freed]

/-! ## Giving back -/

theorem perform_free (holding : Holding) (l : Ledger) :
    perform holding.kind.freeSymbol "" [.reference holding.reference] l = (.ok .null, l.freed) := by
  cases holding with
  | transformation t => exact perform_of_lookup Export.lookup_transformationFree (by decide) l
  | measurement m => exact perform_of_lookup Export.lookup_measurementFree (by decide) l
  | object v => exact perform_of_lookup Export.lookup_objectFree (by decide) l
  | view m => exact perform_of_lookup Export.lookup_sliceFree (by decide) l

theorem takeText_text (s : String) (l : Ledger) :
    takeText (.reference (.text s)) l = (.ok s, l.freed) := by
  have hp : perform "data__str_free" "" [.reference (.text s)] l = (.ok .null, l.freed) :=
    perform_of_lookup Export.lookup_textFree (by decide) l
  rw [takeText, run_bind_ok hp]
  rfl

/-- The ledger after `n` allocations have been given back. -/
def after (l : Ledger) (n : Nat) : Ledger := { l with live := l.live - n }

omit [Elementary] in
theorem after_zero (l : Ledger) : after l 0 = l := by
  simp [after]

omit [Elementary] in
theorem after_after (l : Ledger) (m n : Nat) : after (after l m) n = after l (m + n) := by
  simp only [after, Ledger.mk.injEq, and_true]
  omega

omit [Elementary] in
theorem after_freed (l : Ledger) (n : Nat) : (after l n).freed = after l (1 + n) := by
  simp only [after, Ledger.freed, Ledger.mk.injEq, and_true]
  omega

namespace Handle

mutual

theorem release_eq (h : Handle) (l : Ledger) :
    h.release l = (.ok h.allocationCount, after l h.allocationCount) := by
  match h with
  | ⟨holding, children⟩ =>
    rw [release, run_bind_ok (releaseAll_eq children l), run_bind_ok (perform_free holding _),
      run_pure, after_freed, allocationCount, Nat.add_comm]

theorem releaseAll_eq (hs : List Handle) (l : Ledger) :
    releaseAll hs l = (.ok (allocationCounts hs), after l (allocationCounts hs)) := by
  match hs with
  | [] => rw [releaseAll, run_pure, allocationCounts, after_zero]
  | h :: hs =>
    rw [releaseAll, run_bind_ok (release_eq h l), run_bind_ok (releaseAll_eq hs _), run_pure,
      after_after, allocationCounts]

end

theorem drop_eq (h : Handle) (l : Ledger) : h.drop l = ((), after l h.allocationCount) := by
  rw [drop, Action.ignore, release_eq]

theorem dropAll_eq (hs : List Handle) (l : Ledger) :
    dropAll hs l = ((), after l (allocationCounts hs)) := by
  induction hs generalizing l with
  | nil =>
    rw [allocationCounts, after_zero]
    rfl
  | cons h hs ih =>
    have step : dropAll (h :: hs) l = dropAll hs (h.drop l).2 := rfl
    rw [step, drop_eq, ih, after_after, allocationCounts]

end Handle

end PrivateRelease.Host
