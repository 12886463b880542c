import Mathlib.Data.List.Forall2
import PrivateRelease.Error

/-!
# Outcomes

A computation that may fail, seen from its result: how a success comes about, and what is known of
the value or the error.
-/

namespace PrivateRelease

variable {ε α β : Type}

theorem bind_eq_ok_iff {x : Except ε α} {f : α → Except ε β} {b : β} :
    x >>= f = .ok b ↔ ∃ a, x = .ok a ∧ f a = .ok b := by
  cases x with
  | error e => simp [bind, Except.bind]
  | ok a => simp [bind, Except.bind]

theorem exists_map_eq_ok_iff {x : Except ε α} {f : α → β} :
    (∃ b, (x >>= fun a => pure (f a)) = .ok b) ↔ ∃ a, x = .ok a := by
  cases x <;> simp [bind, Except.bind, pure, Except.pure]

/-- A list is made exactly if its head and its tail are. -/
theorem exists_cons_eq_ok_iff {x : Except ε α} {xs : Except ε (List α)} :
    (∃ r, (x >>= fun a => xs >>= fun as => pure (a :: as)) = .ok r) ↔
      (∃ a, x = .ok a) ∧ ∃ as, xs = .ok as := by
  cases x <;> cases xs <;> simp [bind, Except.bind, pure, Except.pure]

theorem exists_error {r : Except ε α} (h : ∀ a, r ≠ .ok a) : ∃ e, r = .error e := by
  cases r with
  | error e => exact ⟨e, rfl⟩
  | ok a => exact absurd rfl (h a)

@[simp] theorem throw_eq_error {e : ε} : (throw e : Except ε α) = .error e := rfl

theorem ok_bind {a : α} {f : α → Except ε β} : (.ok a : Except ε α) >>= f = f a := rfl

@[simp] theorem error_bind {e : ε} {f : α → Except ε β} :
    (.error e : Except ε α) >>= f = .error e := rfl

theorem mapError_bind {δ : Type} {r : Except ε α} {f : α → Except ε β} {g : ε → δ} :
    (r >>= f).mapError g = r.mapError g >>= fun x => (f x).mapError g := by
  cases r <;> rfl

theorem mapError_eq_ok_iff {δ : Type} {r : Except ε α} {g : ε → δ} {a : α} :
    r.mapError g = .ok a ↔ r = .ok a := by
  cases r with
  | ok x => exact ⟨fun h => by cases h; rfl, fun h => by cases h; rfl⟩
  | error e => exact ⟨nofun, nofun⟩

/-- A pass over a list succeeds with what each item gives. -/
theorem mapM_eq_ok_iff {f : α → Except ε β} {xs : List α} {ys : List β} :
    xs.mapM f = .ok ys ↔ List.Forall₂ (fun x y => f x = .ok y) xs ys := by
  induction xs generalizing ys with
  | nil => exact ⟨fun h => by cases h; exact .nil, fun h => by cases h; rfl⟩
  | cons x xs ih =>
    simp only [List.mapM_cons, bind_eq_ok_iff, ih, List.forall₂_cons_left_iff]
    constructor
    · rintro ⟨y, hy, zs, hzs, made⟩
      exact ⟨y, zs, hy, hzs, (Except.ok.inj made).symm⟩
    · rintro ⟨y, zs, hy, hzs, rfl⟩
      exact ⟨y, hy, zs, hzs, rfl⟩

theorem length_of_mapM {f : α → Except ε β} {xs : List α} {ys : List β} (h : xs.mapM f = .ok ys) :
    ys.length = xs.length :=
  (mapM_eq_ok_iff.mp h).length_eq.symm

/-- Where each item is made into another, the list is made into the list of them. -/
theorem mapM_eq_ok_map {f : β → Except ε α} {k : β → α} {xs : List β}
    (h : ∀ x ∈ xs, f x = .ok (k x)) : xs.mapM f = .ok (xs.map k) :=
  mapM_eq_ok_iff.mpr (List.forall₂_map_right_iff.mpr (List.forall₂_same.mpr h))

/-- What each item made is read as, the list made is read as. -/
theorem mapM_map_ok {γ : Type} {f : β → Except ε α} {g : γ → β} {k : γ → α}
    (h : ∀ x, f (g x) = .ok (k x)) (xs : List γ) : (xs.map g).mapM f = .ok (xs.map k) := by
  rw [List.mapM_map]
  exact mapM_eq_ok_map fun x _ => h x

/-- Reading back each item reads back the list. -/
theorem mapM_map_eq_ok {f : β → Except ε α} {g : α → β} (h : ∀ x, f (g x) = .ok x) (xs : List α) :
    (xs.map g).mapM f = .ok xs := by
  rw [mapM_map_ok h, List.map_id']

/-- Two passes over a list succeed with what one pass by both steps in turn gives. -/
theorem mapM_bind_eq_ok_iff {γ : Type} {f : α → Except ε β} {g : β → Except ε γ} {xs : List α}
    {zs : List γ} : xs.mapM (fun x => f x >>= g) = .ok zs ↔
      ∃ ys, xs.mapM f = .ok ys ∧ ys.mapM g = .ok zs := by
  induction xs generalizing zs with
  | nil => exact ⟨fun h => ⟨[], rfl, h⟩, fun ⟨ys, hys, h⟩ => by cases hys; exact h⟩
  | cons x xs ih =>
    simp only [List.mapM_cons, bind_eq_ok_iff]
    constructor
    · rintro ⟨z, ⟨y, hy, hz⟩, zs, hzs, h⟩
      obtain ⟨ys, hys, hzs⟩ := ih.mp hzs
      refine ⟨y :: ys, ⟨y, hy, ys, hys, rfl⟩, ?_⟩
      simp only [List.mapM_cons, bind_eq_ok_iff]
      exact ⟨z, hz, zs, hzs, h⟩
    · rintro ⟨_, ⟨y, hy, ys, hys, made⟩, h⟩
      cases made
      simp only [List.mapM_cons, bind_eq_ok_iff] at h
      obtain ⟨z, hz, zs, hzs, h⟩ := h
      exact ⟨z, ⟨y, hy, hz⟩, zs, ih.mpr ⟨ys, hys, hzs⟩, h⟩

/-- What is computed from related items is related. -/
theorem forall₂_of_mapM {α' β' : Type} {R : α → α' → Prop} {S : β → β' → Prop}
    {f : α → Except ε β} {g : α' → Except ε β'} {xs : List α} {xs' : List α'}
    (h : List.Forall₂ R xs xs')
    (step : ∀ x x', R x x' → ∀ y y', f x = .ok y → g x' = .ok y' → S y y') {ys : List β}
    {ys' : List β'} (hf : xs.mapM f = .ok ys) (hg : xs'.mapM g = .ok ys') :
    List.Forall₂ S ys ys' := by
  rw [mapM_eq_ok_iff] at hf hg
  induction h generalizing ys ys' with
  | nil =>
    cases hf
    cases hg
    exact .nil
  | cons related _ ih =>
    cases hf with
    | cons hy hf =>
      cases hg with
      | cons hy' hg => exact .cons (step _ _ related _ _ hy hy') (ih hf hg)

/-- What is computed from each item has a property that all of them give. -/
theorem forall_mem_of_mapM {P : β → Prop} {f : α → Except ε β} {xs : List α} {ys : List β}
    (h : ∀ x ∈ xs, ∀ y, f x = .ok y → P y) (hf : xs.mapM f = .ok ys) : ∀ y ∈ ys, P y := by
  rw [mapM_eq_ok_iff] at hf
  induction hf with
  | nil => simp
  | cons hy _ ih =>
    rw [List.forall_mem_cons] at h ⊢
    exact ⟨h.1 _ hy, ih h.2⟩

/-- A value with `P`, or an error with `E`. -/
def Yields (E : ε → Prop) (P : α → Prop) : Except ε α → Prop
  | .ok a => P a
  | .error e => E e

namespace Yields

variable {E : ε → Prop} {P : α → Prop} {Q : β → Prop}

theorem pure {a : α} (h : P a) : Yields E P (Pure.pure a) := h

theorem mono {r : Except ε α} {F : ε → Prop} {P' : α → Prop} (h : Yields E P r)
    (he : ∀ e, E e → F e) (hp : ∀ a, P a → P' a) : Yields F P' r := by
  cases r with
  | ok a => exact hp a h
  | error e => exact he e h

theorem bind {x : Except ε α} {f : α → Except ε β} (h : Yields E P x)
    (hf : ∀ a, P a → Yields E Q (f a)) : Yields E Q (x >>= f) := by
  cases x with
  | ok a => exact hf a h
  | error e => exact h

theorem mapM {xs : List α} {f : α → Except ε β} (h : ∀ x ∈ xs, Yields E Q (f x)) :
    Yields E (fun ys => ∀ y ∈ ys, Q y) (xs.mapM f) := by
  induction xs with
  | nil => exact pure (by simp)
  | cons x xs ih =>
    rw [List.mapM_cons]
    refine bind (h x List.mem_cons_self) fun y hy => ?_
    refine bind (ih fun z hz => h z (List.mem_cons_of_mem x hz)) fun ys hys => ?_
    exact pure (by simpa using ⟨hy, hys⟩)

end Yields

end PrivateRelease
