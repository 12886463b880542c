import PrivateRelease.Proofs.Boundary.Runs
import PrivateRelease.Proofs.Text.NulFree

/-!
# Evaluation over a tape

What a call or a host action comes to does not depend on the count of allocations or on the last
error, only on the tape of draws. `Evaluates a t r t'` says so of one tape: on every ledger with tape
`t` the computation ends in `r`, and the tape is then `t'`.
-/

namespace PrivateRelease.Boundary

variable {ε α β : Type}

/-- On any ledger with tape `t`, the computation ends in `r` and leaves the tape `t'`. -/
def Evaluates (a : ExceptT ε (StateM Ledger) α) (t : Tape) (r : Except ε α) (t' : Tape) : Prop :=
  ∀ l : Ledger, l.tape = t → (a l).1 = r ∧ (a l).2.tape = t'

namespace Evaluates

variable {a : ExceptT ε (StateM Ledger) α} {f : α → ExceptT ε (StateM Ledger) β} {t t' t'' : Tape}

theorem pure (x : α) (t : Tape) :
    Evaluates (Pure.pure x : ExceptT ε (StateM Ledger) α) t (.ok x) t := fun _ hl => ⟨rfl, hl⟩

theorem throw (e : ε) (t : Tape) :
    Evaluates (MonadExcept.throw e : ExceptT ε (StateM Ledger) α) t (.error e) t :=
  fun _ hl => ⟨rfl, hl⟩

theorem bind_ok {x : α} {r : Except ε β} (ha : Evaluates a t (.ok x) t')
    (hf : Evaluates (f x) t' r t'') : Evaluates (a >>= f) t r t'' := by
  intro l hl
  obtain ⟨hr, ht⟩ := ha l hl
  have run : a l = (.ok x, (a l).2) := Prod.ext hr rfl
  rw [run_bind_ok run]
  exact hf _ ht

theorem bind_error {e : ε} (ha : Evaluates a t (.error e) t') :
    Evaluates (a >>= f) t (.error e) t' := by
  intro l hl
  obtain ⟨hr, ht⟩ := ha l hl
  have run : a l = (.error e, (a l).2) := Prod.ext hr rfl
  rw [run_bind_error run]
  exact ⟨rfl, ht⟩

/-- What follows leaves the tape alone. -/
theorem bind {r : Except ε α} {g : α → Except ε β} (ha : Evaluates a t r t')
    (hf : ∀ x, r = .ok x → Evaluates (f x) t' (g x) t') : Evaluates (a >>= f) t (r >>= g) t' := by
  cases r with
  | ok x => exact ha.bind_ok (hf x rfl)
  | error e => exact ha.bind_error

end Evaluates

/-! ## Calls -/

namespace Call

theorem evaluates_ofExcept (r : Except CallError α) (t : Tape) :
    Evaluates (Call.ofExcept r) t r t := fun _ hl => ⟨rfl, hl⟩

theorem evaluates_ok {r : Except CallError α} {x : α} (h : r = .ok x) (t : Tape) :
    Evaluates (Call.ofExcept r) t (.ok x) t := h ▸ evaluates_ofExcept r t

theorem evaluates_error {r : Except CallError α} {e : CallError} (h : r = .error e) (t : Tape) :
    Evaluates (Call.ofExcept r) t (.error e) t := h ▸ evaluates_ofExcept r t

theorem evaluates_ofCore (r : Except Error α) (t : Tape) :
    Evaluates (Call.ofCore r) t (r.mapError .failed) t := fun _ hl => ⟨rfl, hl⟩

theorem evaluates_core_ok {r : Except Error α} {x : α} (h : r = .ok x) (t : Tape) :
    Evaluates (Call.ofCore r) t (.ok x) t := h ▸ evaluates_ofCore r t

theorem evaluates_core_error {r : Except Error α} {e : Error} (h : r = .error e) (t : Tape) :
    Evaluates (Call.ofCore r) t (.error (.failed e)) t := h ▸ evaluates_ofCore r t

theorem evaluates_give (r : Reference) (t : Tape) :
    Evaluates (Call.give r) t (.ok (.reference r)) t := fun _ hl => ⟨rfl, hl⟩

/-- What the library makes is handed over. -/
theorem evaluates_made (r : Except Error α) (give : α → Reference) (t : Tape) :
    Evaluates (do Call.give (give (← Call.ofCore r))) t
      (r.mapError .failed >>= fun y => .ok (.reference (give y))) t :=
  (evaluates_ofCore r t).bind fun _ _ => evaluates_give _ t

theorem evaluates_giveText {s : String} (h : Text.NulFree s) (t : Tape) :
    Evaluates (Call.giveText s) t (.ok (.reference (.text s))) t := by
  have given := evaluates_give (.text (removeNul s)) t
  rw [Text.removeNul_eq h] at given
  rw [giveText, Text.removeNul_eq h]
  exact given

theorem evaluates_sample_ok {s : Sampling α} {t t' : Tape} {x : α} (h : s t = .ok (x, t')) :
    Evaluates (Call.sample s) t (.ok x) t' := by
  rintro l rfl
  simp [Call.sample, h]

theorem evaluates_sample_error {s : Sampling α} {t : Tape} {e : Error} (h : s t = .error e) :
    Evaluates (Call.sample s) t (.error (.failed e)) t := by
  rintro l rfl
  simp [Call.sample, h]

end Call

end PrivateRelease.Boundary
