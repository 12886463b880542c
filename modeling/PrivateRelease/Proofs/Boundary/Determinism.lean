import PrivateRelease.Boundary.Entry
import PrivateRelease.Proofs.Boundary.Evaluation

/-!
# Determined by the tape

What a computation comes to is told by the tape of draws alone, however many allocations are live and
whatever the last error was. Only invoking a measurement draws; every other entry point leaves the tape
as it was.
-/

namespace PrivateRelease.Boundary

variable {ε α β : Type}

/-- The tape alone tells what the computation comes to; if it is `still`, it draws nothing. -/
def Determined (still : Prop) (a : ExceptT ε (StateM Ledger) α) : Prop :=
  ∀ t, ∃ r t', Evaluates a t r t' ∧ (still → t' = t)

namespace Determined

variable {still : Prop} {a : ExceptT ε (StateM Ledger) α}
  {f : α → ExceptT ε (StateM Ledger) β}

theorem of_evaluates {r : Tape → Except ε α} (h : ∀ t, Evaluates a t (r t) t) : Determined still a :=
  fun t => ⟨r t, t, h t, fun _ => rfl⟩

theorem pure (x : α) : Determined still (Pure.pure x : ExceptT ε (StateM Ledger) α) :=
  of_evaluates fun t => .pure x t

theorem throw (e : ε) : Determined still (MonadExcept.throw e : ExceptT ε (StateM Ledger) α) :=
  of_evaluates fun t => .throw e t

theorem bind (ha : Determined still a) (hf : ∀ x, Determined still (f x)) :
    Determined still (a >>= f) := by
  intro t
  obtain ⟨r, t', first, kept⟩ := ha t
  cases r with
  | error e => exact ⟨.error e, t', first.bind_error, kept⟩
  | ok x =>
    obtain ⟨r, t'', second, kept'⟩ := hf x t'
    exact ⟨r, t'', first.bind_ok second, fun h => (kept' h).trans (kept h)⟩

theorem map (ha : Determined still a) (g : α → β) : Determined still (g <$> a) := by
  rw [map_eq_pure_bind]
  exact ha.bind fun x => .pure (g x)

theorem mono {P Q : Prop} (ha : Determined P a) (h : Q → P) : Determined Q a := by
  intro t
  obtain ⟨r, t', evaluates, kept⟩ := ha t
  exact ⟨r, t', evaluates, fun hs => kept (h hs)⟩

/-- Only the errors are told in another way. -/
theorem mapError {ε' : Type} {f : ε → ε'} {b : ExceptT ε' (StateM Ledger) α}
    (ha : Determined still a) (h : ∀ l, b l = ((a l).1.mapError f, (a l).2)) :
    Determined still b := by
  intro t
  obtain ⟨r, t', evaluates, kept⟩ := ha t
  refine ⟨r.mapError f, t', fun l hl => ?_, kept⟩
  obtain ⟨result, tape⟩ := evaluates l hl
  rw [h]
  exact ⟨congrArg (Except.mapError f) result, tape⟩

/-- On ledgers with the same tape the results are the same, and so are the tapes. -/
theorem eq_of_tape (ha : Determined still a) {l l' : Ledger} (h : l.tape = l'.tape) :
    (a l).1 = (a l').1 ∧ (a l).2.tape = (a l').2.tape := by
  obtain ⟨r, t', evaluates, -⟩ := ha l.tape
  obtain ⟨result, tape⟩ := evaluates l rfl
  obtain ⟨result', tape'⟩ := evaluates l' h.symm
  exact ⟨result.trans result'.symm, tape.trans tape'.symm⟩

theorem tape_eq (ha : Determined still a) (h : still) (l : Ledger) : (a l).2.tape = l.tape := by
  obtain ⟨r, t', evaluates, kept⟩ := ha l.tape
  rw [(evaluates l rfl).2, kept h]

end Determined

/-! ## Entry points -/

namespace Call

variable {still : Prop}

theorem determined_ofExcept (r : Except CallError α) : Determined still (ofExcept r) :=
  .of_evaluates fun t => evaluates_ofExcept r t

theorem determined_give (r : Reference) : Determined still (give r) :=
  .of_evaluates fun t => evaluates_give r t

theorem determined_sample (s : Sampling α) : Determined False (sample s) := by
  intro t
  cases h : s t with
  | ok x => exact ⟨.ok x.1, x.2, evaluates_sample_ok h, False.elim⟩
  | error e => exact ⟨_, t, evaluates_sample_error h, False.elim⟩

end Call

open Call in
/-- Every entry point is a sequence of steps of its own, of which only drawing a sample tells more
than the arguments do. -/
theorem Entry.determined_body [Elementary] (entry : Entry) (blob : Blob) (args : Arguments) :
    Determined (entry ≠ .measurementInvoke) (entry.body blob args) := by
  by_cases h : entry = .measurementInvoke
  case pos =>
    subst h
    refine Determined.mono (P := False) ?_ fun h => h rfl
    refine (determined_ofExcept _).bind fun (_, _) => (determined_ofExcept _).bind fun m => ?_
    refine (determined_ofExcept _).bind fun v => (determined_sample _).bind fun w => ?_
    exact determined_give _
  cases entry with
  | measurementInvoke => exact absurd rfl h
  | _ =>
    simp only [body]
    repeat' first
      | refine .bind ?_ fun _ => ?_
      | apply determined_ofExcept
      | apply determined_give
      | apply Determined.pure
      | apply Determined.throw
      | split

/-- An envelope tells what its call came to. -/
theorem Envelope.determined_ofCall {still : Prop} {body : Call Payload}
    (h : Determined still body) :
    Determined still (liftM (ofCall body) : ExceptT ε (StateM Ledger) Envelope) := by
  intro t
  obtain ⟨r, t', evaluates, kept⟩ := h t
  have run : ∀ l, (liftM (ofCall body) : ExceptT ε (StateM Ledger) Envelope) l =
      (.ok (ofCall body l).1, (ofCall body l).2) := fun _ => rfl
  cases r with
  | ok p =>
    refine ⟨.ok (ofPayload p), t', fun l hl => ?_, kept⟩
    obtain ⟨result, tape⟩ := evaluates l hl
    rw [run, ofCall]
    generalize body l = out at result tape
    obtain ⟨r, l'⟩ := out
    subst result
    exact ⟨rfl, tape⟩
  | error e =>
    refine ⟨.ok ⟨e.status.code, .null, some (removeNul e.message)⟩, t', fun l hl => ?_, kept⟩
    obtain ⟨result, tape⟩ := evaluates l hl
    rw [run, ofCall]
    generalize body l = out at result tape
    obtain ⟨r, l'⟩ := out
    subst result
    exact ⟨rfl, tape⟩

end PrivateRelease.Boundary
