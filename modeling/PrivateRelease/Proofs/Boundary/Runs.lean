import PrivateRelease.Boundary.Ledger

/-!
# Running on a ledger

Calls and host actions alike are functions of the ledger that may fail. The lemmas here say what a
sequence of them does, one step at a time.
-/

namespace PrivateRelease.Boundary

variable {ε α β : Type}

theorem run_bind (a : ExceptT ε (StateM Ledger) α) (f : α → ExceptT ε (StateM Ledger) β)
    (l : Ledger) : (a >>= f) l =
      match a l with
      | (.ok x, l) => f x l
      | (.error e, l) => (.error e, l) := by
  simp only [bind, ExceptT.bind, ExceptT.mk, ExceptT.bindCont, StateT.bind]
  cases a l with
  | mk r l => cases r <;> rfl

theorem run_bind_ok {a : ExceptT ε (StateM Ledger) α} {f : α → ExceptT ε (StateM Ledger) β}
    {l l' : Ledger} {x : α} (h : a l = (.ok x, l')) : (a >>= f) l = f x l' := by
  rw [run_bind, h]

theorem run_bind_error {a : ExceptT ε (StateM Ledger) α} {f : α → ExceptT ε (StateM Ledger) β}
    {l l' : Ledger} {e : ε} (h : a l = (.error e, l')) : (a >>= f) l = (.error e, l') := by
  rw [run_bind, h]

theorem run_map (f : α → β) (a : ExceptT ε (StateM Ledger) α) (l : Ledger) : (f <$> a) l =
    match a l with
    | (.ok x, l) => (.ok (f x), l)
    | (.error e, l) => (.error e, l) := by
  rw [map_eq_pure_bind, run_bind]
  cases a l with
  | mk r l => cases r <;> rfl

theorem run_pure (x : α) (l : Ledger) :
    (pure x : ExceptT ε (StateM Ledger) α) l = (.ok x, l) := rfl

theorem run_throw (e : ε) (l : Ledger) :
    (throw e : ExceptT ε (StateM Ledger) α) l = (.error e, l) := rfl

/-! ## Settling allocations -/

/-- Owning `n` allocations, the computation ends with a result that owns `k` of them where `Q` holds
of both, or fails and has given all of them back. -/
def Settles (a : ExceptT ε (StateM Ledger) α) (n : Int) (Q : α → Int → Prop) : Prop := ∀ l,
  match a l with
  | (.ok x, l') => Q x (l'.live - l.live + n)
  | (.error _, l') => l'.live + n = l.live

/-- A result that owns nothing. -/
def Owes (_ : α) (k : Int) : Prop := k = 0

namespace Settles

variable {n : Int} {Q : α → Int → Prop} {R : β → Int → Prop}

theorem pure {x : α} (h : Q x n) : Settles (Pure.pure x : ExceptT ε (StateM Ledger) α) n Q := by
  intro l
  simpa [run_pure] using h

theorem throw (e : ε) : Settles (MonadExcept.throw e : ExceptT ε (StateM Ledger) α) 0 Q := by
  intro l
  simp [run_throw]

theorem bind {a : ExceptT ε (StateM Ledger) α} {f : α → ExceptT ε (StateM Ledger) β}
    (ha : Settles a n Q) (hf : ∀ x k, Q x k → Settles (f x) k R) : Settles (a >>= f) n R := by
  intro l
  have hl := ha l
  rw [run_bind]
  generalize a l = out at hl
  rcases out with ⟨e | x, l'⟩
  · exact hl
  · have hr := hf x _ hl l'
    simp only
    generalize f x l' = out at hr
    rcases out with ⟨e | y, l''⟩
    · simp only at hr ⊢
      omega
    · simp only at hr ⊢
      rwa [show l''.live - l.live + n = l''.live - l'.live + (l'.live - l.live + n) by omega]

theorem mono {a : ExceptT ε (StateM Ledger) α} {Q' : α → Int → Prop} (h : Settles a n Q)
    (hq : ∀ x k, Q x k → Q' x k) : Settles a n Q' := by
  intro l
  have hl := h l
  generalize a l = out at hl
  rcases out with ⟨e | x, l'⟩
  · exact hl
  · exact hq x _ hl

theorem map {a : ExceptT ε (StateM Ledger) α} {f : α → β} (h : Settles a n Q)
    (hf : ∀ x k, Q x k → R (f x) k) : Settles (f <$> a) n R := by
  rw [map_eq_pure_bind]
  exact h.bind fun x k hk => .pure (hf x k hk)

/-- A step that owns nothing before and after. -/
theorem step {a : ExceptT ε (StateM Ledger) α} {f : α → ExceptT ε (StateM Ledger) β}
    (ha : Settles a 0 Owes) (hf : ∀ x, Settles (f x) 0 R) : Settles (a >>= f) 0 R := by
  refine ha.bind fun x k hk => ?_
  rw [show k = 0 from hk]
  exact hf x

end Settles

end PrivateRelease.Boundary
