import PrivateRelease.Proofs.Number.Rounding

/-!
# Sums without NaN

A sum of numbers is a NaN only if it meets infinities of both signs, one of which may be the total so
far, grown too large. Finite summands have none, and summands on one side of zero keep the total on
that side. A quotient by a finite number other than zero is no NaN either.
-/

namespace PrivateRelease

namespace Binary

open Precision

variable {p : Precision}

/-- Zero, or a number of the given sign. -/
def OnSide (negative : Bool) : Binary p → Prop
  | nan .. => False
  | number s r _ => s = negative ∨ r = 0

/-- Between such bounds a sum cannot meet infinities of both signs: both are finite, or zero is not
strictly between them. -/
def Summable (lower upper : Binary p) : Prop :=
  (lower.isFinite ∧ upper.isFinite) ∨ lower.OnSide false ∨ upper.OnSide true

theorem OnSide.isNaN_eq {s : Bool} {x : Binary p} (h : x.OnSide s) : x.isNaN = false := by
  cases x with
  | nan => cases h
  | number => rfl

/-! ## Addition -/

theorem isNaN_ofUnits (s : Bool) (n : Int) : (ofUnits s n : Binary p).isNaN = false := by
  unfold ofUnits
  split <;> rfl

theorem onSide_ofUnits {s : Bool} (t : Bool) {n : Int} (h : if s then n ≤ 0 else 0 ≤ n) :
    (ofUnits t n : Binary p).OnSide s := by
  unfold ofUnits
  split
  · exact .inr rfl
  · refine .inl ?_
    cases s <;> simp only [reduceIte, Bool.false_eq_true] at h <;> simp <;> omega

theorem isNaN_add_of_isFinite {a x : Binary p} (ha : a.isNaN = false) (hx : x.isFinite) :
    (a + x).isNaN = false := by
  cases a with
  | nan => cases ha
  | number s r h =>
    cases x with
    | nan => cases hx
    | number t k h' =>
      have hk : k ≠ p.infinity := by simpa [isFinite] using hx
      show (add (number s r h) (number t k h')).isNaN = false
      unfold add
      simp only [hk, if_false, decide_false, Bool.false_and]
      split
      · rfl
      · exact isNaN_ofUnits _ _

theorem signedUnits_side {s t : Bool} {r : Nat} (h : t = s ∨ r = 0) :
    if s then signedUnits p t r ≤ 0 else 0 ≤ signedUnits p t r := by
  have zero := units_zero p
  unfold signedUnits
  rcases h with rfl | rfl
  · cases t <;> simp
  · cases s <;> cases t <;> simp [zero]

theorem OnSide.add {s : Bool} {a x : Binary p} (ha : a.OnSide s) (hx : x.OnSide s) :
    (a + x).OnSide s := by
  cases a with
  | nan => cases ha
  | number t r h =>
    cases x with
    | nan => cases hx
    | number u k h' =>
      show (Binary.add (number t r h) (number u k h')).OnSide s
      have pos := infinity_pos p
      unfold Binary.add
      by_cases hr : r = p.infinity
      · -- An infinite number on the side is of its sign, and so are two of them.
        have ht : t = s := ha.resolve_right (by omega)
        by_cases hk : k = p.infinity
        · have hu : u = s := hx.resolve_right (by omega)
          simp [hr, ht, hu, OnSide]
        · simp [hr, hk, ht, OnSide]
      · by_cases hk : k = p.infinity
        · simpa [hr, hk] using hx
        · simp only [hr, hk, if_false]
          have left := signedUnits_side (p := p) ha
          have right := signedUnits_side (p := p) hx
          refine onSide_ofUnits _ ?_
          cases s
          · simp only [Bool.false_eq_true, if_false] at left right ⊢
            omega
          · simp only [if_true] at left right ⊢
            omega

/-! ## Places between bounds -/

theorem le_iff {a b : Binary p} :
    a.le b ↔ ∃ i j, a.position = some i ∧ b.position = some j ∧ i ≤ j := by
  unfold le
  cases a.position <;> cases b.position <;> simp

theorem onSide_iff {s : Bool} {x : Binary p} :
    x.OnSide s ↔ ∃ i, x.position = some i ∧ if s then i ≤ 0 else 0 ≤ i := by
  cases x with
  | nan => simp [OnSide, position]
  | number t r => cases s <;> cases t <;> simp [OnSide, position]

theorem isFinite_iff {x : Binary p} :
    x.isFinite ↔ ∃ i, x.position = some i ∧ -(p.infinity : Int) < i ∧ i < p.infinity := by
  cases x with
  | nan => simp [isFinite, position]
  | number t r h => cases t <;> simp [isFinite, position] <;> omega

section Between

variable {lower upper x : Binary p}

theorem isFinite_of_between (hl : lower.isFinite) (hu : upper.isFinite) (h : lower.le x)
    (h' : x.le upper) : x.isFinite := by
  obtain ⟨i, hi, hi'⟩ := isFinite_iff.mp hl
  obtain ⟨k, hk, hk'⟩ := isFinite_iff.mp hu
  obtain ⟨_, j, li, lj, hij⟩ := le_iff.mp h
  obtain ⟨_, _, uj, uk, hjk⟩ := le_iff.mp h'
  rw [hi] at li
  rw [hk] at uk
  rw [lj] at uj
  cases li
  cases uk
  cases uj
  exact isFinite_iff.mpr ⟨j, lj, by omega, by omega⟩

theorem onSide_of_lower (hl : lower.OnSide false) (h : lower.le x) : x.OnSide false := by
  obtain ⟨i, hi, side⟩ := onSide_iff.mp hl
  obtain ⟨_, j, li, lj, hij⟩ := le_iff.mp h
  rw [hi] at li
  cases li
  exact onSide_iff.mpr ⟨j, lj, Int.le_trans side hij⟩

theorem onSide_of_upper (hu : upper.OnSide true) (h : x.le upper) : x.OnSide true := by
  obtain ⟨k, hk, side⟩ := onSide_iff.mp hu
  obtain ⟨j, _, uj, uk, hjk⟩ := le_iff.mp h
  rw [hk] at uk
  cases uk
  exact onSide_iff.mpr ⟨j, uj, Int.le_trans hjk side⟩

end Between

/-! ## Sums -/

/-- A property of the total that no summand breaks is one of the sum. -/
theorem sum_induction {P : Binary p → Prop} {xs : List (Binary p)} (start : P (zero true))
    (step : ∀ a, P a → ∀ x ∈ xs, P (a + x)) : P (sum xs) :=
  List.foldlRecOn xs _ start step

/-- A sum of numbers between bounds that keep infinities apart is a number. -/
theorem Summable.isNaN_sum {lower upper : Binary p} (h : Summable lower upper)
    {xs : List (Binary p)} (within : ∀ x ∈ xs, lower.le x ∧ x.le upper) :
    (sum xs).isNaN = false := by
  rcases h with ⟨hl, hu⟩ | hl | hu
  · refine sum_induction (P := fun a => a.isNaN = false) rfl fun a ha x hx => ?_
    obtain ⟨h, h'⟩ := within x hx
    exact isNaN_add_of_isFinite ha (isFinite_of_between hl hu h h')
  · refine (sum_induction (P := OnSide false) (.inr rfl) fun a ha x hx => ?_).isNaN_eq
    exact ha.add (onSide_of_lower hl (within x hx).1)
  · refine (sum_induction (P := OnSide true) (.inl rfl) fun a ha x hx => ?_).isNaN_eq
    exact ha.add (onSide_of_upper hu (within x hx).2)

/-! ## Quotients -/

theorem isNaN_div {a : Binary p} (ha : a.isNaN = false) {k : Nat} (h : k ≤ p.infinity) (pos : 0 < k)
    (finite : k < p.infinity) (s : Bool) : (a / number s k h).isNaN = false := by
  cases a with
  | nan => cases ha
  | number t r h' =>
    show (div (number t r h') (number s k h)).isNaN = false
    unfold div
    have hk : k ≠ p.infinity := by omega
    have hk' : k ≠ 0 := by omega
    simp only [hk, hk', if_false]
    split <;> rfl

/-- The double nearest to a word other than zero lies between powers of two, far from infinity. -/
theorem exists_ofNat {n : Nat} (pos : 0 < n) (h : n < 2 ^ 64) :
    ∃ r hr, (ofNat n : Binary double) = number false r hr ∧ r < double.infinity ∧
      2 ^ double.scale ≤ double.units r ∧ double.units r ≤ 2 ^ (double.scale + 64) := by
  have low : 2 ^ double.scale * 1 ≤ n * 2 ^ double.scale := by
    rw [Nat.mul_one]
    exact Nat.le_mul_of_pos_left _ pos
  have high : n * 2 ^ double.scale < 2 ^ (double.scale + 64) * 1 := by
    rw [Nat.mul_one, Nat.pow_add, Nat.mul_comm]
    exact Nat.mul_lt_mul_of_pos_left h (Nat.two_pow_pos _)
  have above := le_nearest (p := double) Nat.one_pos (by decide) low
  have below := nearest_le_of_lt (p := double) Nat.one_pos (by decide) high
  refine ⟨double.nearest (n * 2 ^ double.scale) 1, nearest_le _ _ _, ?_, ?_, ?_, ?_⟩
  · have hn : n ≠ 0 := by omega
    simp [ofNat, ofInt, hn, rounded]
  · exact Nat.lt_of_le_of_lt below (by decide)
  · refine Nat.le_trans (Nat.le_of_eq (units_two_pow (by decide)).symm) (units_le ?_)
    exact Nat.le_trans (by decide) above
  · exact Nat.le_trans (units_le below) (Nat.le_of_eq (units_two_pow (by decide)))

/-- The number of a precision nearest to a word other than zero is neither zero nor infinite. -/
theorem exists_convert_ofNat (p : Precision) {n : Nat} (pos : 0 < n) (h : n < 2 ^ 64) :
    ∃ r hr, ((ofNat n : Binary double).convert : Binary p) = number false r hr ∧ 0 < r ∧
      r < p.infinity := by
  obtain ⟨R, hR, wide, finite, low, high⟩ := exists_ofNat pos h
  have unit := Nat.two_pow_pos double.scale
  have low' : 2 ^ p.scale * 2 ^ double.scale ≤ double.units R * 2 ^ p.scale := by
    rw [Nat.mul_comm]
    exact Nat.mul_le_mul_right _ low
  have high' : double.units R * 2 ^ p.scale < 2 ^ (p.scale + 65) * 2 ^ double.scale := by
    have : double.units R < 2 ^ (double.scale + 65) :=
      Nat.lt_of_le_of_lt high (Nat.pow_lt_pow_right (by omega) (by omega))
    rw [← Nat.pow_add, Nat.add_right_comm, Nat.add_comm p.scale, Nat.add_right_comm, Nat.pow_add]
    exact Nat.mul_lt_mul_of_pos_right this (Nat.two_pow_pos _)
  have above := le_nearest (p := p) unit (by cases p <;> decide) low'
  have below := nearest_le_of_lt (p := p) unit (by cases p <;> decide) high'
  refine ⟨_, nearest_le _ (double.units R * 2 ^ p.scale) (2 ^ double.scale), ?_, ?_, ?_⟩
  · rw [wide, convert, if_neg (Nat.ne_of_lt finite)]
    rfl
  · exact Nat.lt_of_lt_of_le (by cases p <;> decide) above
  · exact Nat.lt_of_le_of_lt below (by cases p <;> decide)

end Binary

end PrivateRelease
