import Mathlib.Algebra.Order.Field.Basic
import Mathlib.Algebra.Order.Field.Rat
import Mathlib.Tactic.FieldSimp
import Mathlib.Tactic.GCongr
import Mathlib.Tactic.Linarith
import Mathlib.Tactic.Positivity
import Mathlib.Tactic.Ring
import PrivateRelease.Proofs.Number.Comparisons

/-!
# Exact values

A finite number is a whole number of units, so its value is a rational number. The order of numbers
is that of their values, the wide format has every value of the narrow one, and a double rounded up
to a precision is not below what it was.
-/

namespace PrivateRelease

namespace Binary

open Precision

variable {p q : Precision} {x y : Binary p} {r k : Nat}

/-- The value of a finite number. NaN and the infinities have none, and `0` stands in for it. -/
def toRat (x : Binary p) : ℚ := ((x.units?.getD 0 : Int) : ℚ) / 2 ^ p.scale

theorem toRat_number (s : Bool) (h : r ≤ p.infinity) (finite : r ≠ p.infinity) :
    (number s r h).toRat = (signedUnits p s r : ℚ) / 2 ^ p.scale := by
  simp only [toRat, units?, if_neg finite, signedUnits, Option.getD_some]

theorem exists_of_isFinite (h : x.isFinite) :
    ∃ s r, ∃ bound : r ≤ p.infinity, r ≠ p.infinity ∧ x = number s r bound := by
  cases x with
  | nan => cases h
  | number s r bound => exact ⟨s, r, bound, by simpa [isFinite] using h, rfl⟩

theorem isFinite_number {s : Bool} {h : r ≤ p.infinity} :
    (number s r h).isFinite ↔ r ≠ p.infinity := by
  simp [isFinite]

theorem scale_pos (p : Precision) : (0 : ℚ) < 2 ^ p.scale := by positivity

@[simp] theorem toRat_zero (s : Bool) : (zero s : Binary p).toRat = 0 := by
  have units : signedUnits p s 0 = 0 := by cases s <;> simp [signedUnits, units_zero]
  rw [zero, toRat_number s _ (Nat.ne_of_lt p.infinity_pos), units, Int.cast_zero, zero_div]

/-- Zeros of both signs have the same value. -/
theorem toRat_of_isZero (h : x.isZero) : x.toRat = 0 := by
  cases x with
  | nan => cases h
  | number s r bound =>
    have zero : r = 0 := by simpa [isZero] using h
    subst zero
    exact toRat_zero s

theorem isFinite_neg (x : Binary p) : x.neg.isFinite = x.isFinite := by cases x <;> rfl

theorem isFinite_abs (x : Binary p) : x.abs.isFinite = x.isFinite := by cases x <;> rfl

theorem isNaN_abs (x : Binary p) : x.abs.isNaN = x.isNaN := by cases x <;> rfl

theorem isNaN_of_le (h : x.le y) : x.isNaN = false ∧ y.isNaN = false := by
  obtain ⟨i, j, hi, hj, _⟩ := Binary.le_iff.mp h
  cases x with
  | nan => cases hi
  | number =>
    cases y with
    | nan => cases hj
    | number => exact ⟨rfl, rfl⟩

theorem toRat_neg (x : Binary p) : x.neg.toRat = -x.toRat := by
  cases x with
  | nan => simp [toRat, neg, units?]
  | number s r h =>
    by_cases finite : r = p.infinity
    · simp [toRat, neg, units?, finite]
    · rw [neg, toRat_number _ _ finite, toRat_number _ _ finite, signedUnits_not, Int.cast_neg,
        neg_div]

/-! ## Order -/

/-- The order of numbers is that of their values. -/
theorem toRat_le (h : x.le y) (hx : x.isFinite) (hy : y.isFinite) : x.toRat ≤ y.toRat := by
  obtain ⟨s, r, bound, finite, rfl⟩ := exists_of_isFinite hx
  obtain ⟨t, k, bound', finite', rfl⟩ := exists_of_isFinite hy
  rw [toRat_number _ _ finite, toRat_number _ _ finite']
  exact (div_le_div_iff_of_pos_right (scale_pos p)).mpr (Int.cast_le.mpr (signedUnits_le h))

theorem toRat_nonneg (h : x.OnSide false) : 0 ≤ x.toRat := by
  cases x with
  | nan => cases h
  | number s r bound =>
    by_cases finite : r = p.infinity
    · simp [toRat, units?, finite]
    · rw [toRat_number _ _ finite, signedUnits_eq h]
      exact div_nonneg (Nat.cast_nonneg _) (scale_pos p).le

theorem toRat_abs (x : Binary p) : x.abs.toRat = |x.toRat| := by
  cases x with
  | nan => simp [toRat, Binary.abs, units?]
  | number s r h =>
    by_cases finite : r = p.infinity
    · simp [toRat, Binary.abs, units?, finite]
    · rw [Binary.abs, toRat_number _ _ finite, toRat_number _ _ finite, abs_div,
        abs_of_pos (scale_pos p)]
      cases s <;> simp [signedUnits]

/-- Between numbers that are finite there are finite numbers only, with values in between. -/
theorem exact_between {lower upper : Binary p} (hl : lower.isFinite) (hu : upper.isFinite)
    (h : lower.le x) (h' : x.le upper) :
    x.isFinite ∧ lower.toRat ≤ x.toRat ∧ x.toRat ≤ upper.toRat := by
  have hx := isFinite_of_between hl hu h h'
  exact ⟨hx, toRat_le h hl hx, toRat_le h' hx hu⟩

theorem exists_position (hx : x.isNaN = false) : ∃ i, x.position = some i := by
  cases x with
  | nan => cases hx
  | number s r h => exact ⟨_, rfl⟩

theorem le_max (hx : x.isNaN = false) (hy : y.isNaN = false) : x.le (x.max y) ∧ y.le (x.max y) := by
  obtain ⟨i, hi⟩ := exists_position hx
  obtain ⟨j, hj⟩ := exists_position hy
  rw [Binary.max, hx, hy, if_neg Bool.false_ne_true, if_neg Bool.false_ne_true]
  simp only [Binary.le_iff, Binary.lt, hi, hj, decide_eq_true_eq]
  split
  next less => exact ⟨⟨i, i, rfl, hi, le_refl i⟩, ⟨j, i, rfl, hi, less.le⟩⟩
  next less => exact ⟨⟨i, j, rfl, hj, not_lt.mp less⟩, ⟨j, j, rfl, hj, le_refl j⟩⟩

theorem isFinite_of_abs_le (number : x.isNaN = false) (h : x.abs.le y) (hy : y.isFinite) :
    x.isFinite := by
  have least : (zero false : Binary p).isFinite := isFinite_number.mpr (Nat.ne_of_lt p.infinity_pos)
  have above : (zero false : Binary p).le x.abs := by
    cases x with
    | nan => cases number
    | number s r bound => simp [le, position, zero, Binary.abs]
  rw [← isFinite_abs]
  exact isFinite_of_between least hy above h

/-! ## Conversions -/

/-- The units of a rank in the wide format and in its own say the same value. -/
theorem toRat_eq_of_units {s : Bool} {h : r ≤ p.infinity} {h' : k ≤ q.infinity}
    (finite : r ≠ p.infinity) (finite' : k ≠ q.infinity)
    (units : q.units k * 2 ^ p.scale = p.units r * 2 ^ q.scale) :
    (number s k h').toRat = (number s r h).toRat := by
  have cast : (q.units k : ℚ) * 2 ^ p.scale = p.units r * 2 ^ q.scale := by exact_mod_cast units
  rw [toRat_number _ _ finite, toRat_number _ _ finite',
    div_eq_div_iff (scale_pos q).ne' (scale_pos p).ne']
  cases s with
  | false => simpa [signedUnits] using cast
  | true => simpa [signedUnits] using cast

theorem isFinite_convert (h : (x.convert : Binary q).isFinite) : x.isFinite := by
  cases x with
  | nan =>
    rw [convert] at h
    split at h <;> cases h
  | number s r bound =>
    rw [isFinite_number]
    rintro rfl
    simp [convert, infinite, isFinite] at h

/-- The double of a finite number is finite and has its value. -/
theorem convert_double (hx : x.isFinite) :
    (x.convert : Binary .double).isFinite ∧ (x.convert : Binary .double).toRat = x.toRat := by
  cases p with
  | double =>
    rw [convert_self]
    exact ⟨hx, rfl⟩
  | single =>
    obtain ⟨s, r, bound, finite, rfl⟩ := exists_of_isFinite hx
    obtain ⟨k, hk, hu⟩ := exists_wide (Nat.lt_of_le_of_ne bound finite)
    have wide : ((number s r bound).convert : Binary .double) = number s k (Nat.le_of_lt hk) := by
      rw [convert, if_neg finite, ← hu]
      exact rounded_units s (Nat.le_of_lt hk) (Nat.two_pow_pos _)
    rw [wide]
    exact ⟨isFinite_number.mpr (Nat.ne_of_lt hk), toRat_eq_of_units finite (Nat.ne_of_lt hk) hu⟩

/-- A whole number of no more bits than a fraction has is a double. -/
theorem exists_ofNat_exact {n : Nat} (h : n < 2 ^ 53) : ∃ r, ∃ bound : r ≤ double.infinity,
    r ≠ double.infinity ∧ double.units r = n * 2 ^ double.scale ∧
      (ofNat n : Binary .double) = number false r bound := by
  obtain ⟨r, hr, hu⟩ := exists_units (p := double) (m := n) (Nat.lt_of_lt_of_le h (by decide))
    double.scale
  have finite : r < double.infinity := Nat.lt_of_lt_of_le hr (by decide)
  refine ⟨r, Nat.le_of_lt finite, Nat.ne_of_lt finite, hu, ?_⟩
  have exact := nearest_units (Nat.le_of_lt finite) Nat.one_pos
  rw [hu, Nat.mul_one] at exact
  rw [ofNat, ofInt_eq]
  simp [exact]

theorem toRat_ofNat {n : Nat} (h : n < 2 ^ 53) : (ofNat n : Binary .double).toRat = n := by
  obtain ⟨r, bound, finite, units, made⟩ := exists_ofNat_exact h
  rw [made, toRat_number _ _ finite, signedUnits_eq (.inl rfl), units]
  push_cast
  exact mul_div_cancel_right₀ _ (scale_pos _).ne'

/-! ## Sizes -/

theorem isFinite_ofNat {n : Nat} (word : n < 2 ^ 64) : (ofNat n : Binary .double).isFinite := by
  have ends : (ofInt 0 : Binary .double).isFinite ∧ (ofInt (2 ^ 64) : Binary .double).isFinite := by
    decide +kernel
  exact isFinite_of_between ends.1 ends.2 (le_ofInt (by omega)) (le_ofInt (by omega))

/-- Twice a number is in the format but for its end. -/
theorem exists_units_double (p : Precision) (r : Nat) : ∃ k, p.units k = 2 * p.units r := by
  obtain ⟨e, m, rfl, h, hm⟩ := p.exists_significand r
  obtain ⟨k, _, hk⟩ := exists_units hm (e + 1)
  exact ⟨k, by rw [hk, h.units, Nat.pow_succ]; ac_rfl⟩

/-- A word, or twice a word, is rounded once: doubling is exact. -/
theorem ofNat_mul_ofNat {c n : Nat} (hc : c = 1 ∨ c = 2) (pos : 0 < n) (word : n < 2 ^ 64) :
    ∃ r, ∃ bound : r ≤ double.infinity, 0 < r ∧ r ≠ double.infinity ∧
      (ofNat c * ofNat n : Binary .double) = number false r bound ∧
      (number false r bound).toRat = c * (ofNat n : Binary .double).toRat := by
  obtain ⟨k, bound', size, finite', low, high⟩ := exists_ofNat pos word
  obtain ⟨j, bound'', finite'', units, factor⟩ :=
    exists_ofNat_exact (n := c) (by rcases hc with rfl | rfl <;> decide)
  obtain ⟨r, hr⟩ : ∃ r, double.units r = c * double.units k := by
    rcases hc with rfl | rfl
    · exact ⟨k, (Nat.one_mul _).symm⟩
    · exact exists_units_double .double k
  have finite : r < double.infinity := by
    by_contra large
    have above := units_le (p := .double) (not_lt.mp large)
    have beyond : 2 * 2 ^ (double.scale + 64) < double.units double.infinity := by
      rw [← Nat.pow_succ', Nat.succ_eq_add_one, ← units_two_pow (p := .double) (by decide)]
      exact units_lt (by decide)
    have twice : c * double.units k ≤ 2 * double.units k :=
      Nat.mul_le_mul_right _ (by rcases hc with rfl | rfl <;> decide)
    omega
  have made : (ofNat c * ofNat n : Binary .double) = number false r (Nat.le_of_lt finite) := by
    rw [factor, size]
    show mul (number false j bound'') (number false k bound') = _
    rw [mul, if_neg (by simp [finite'', Nat.ne_of_lt finite']), units, Nat.mul_right_comm, ← hr]
    exact rounded_units _ _ (Nat.two_pow_pos _)
  refine ⟨r, Nat.le_of_lt finite, ?_, Nat.ne_of_lt finite, made, ?_⟩
  · refine Nat.pos_of_ne_zero ?_
    rintro rfl
    have scale := Nat.two_pow_pos double.scale
    have zero := units_zero .double
    rcases hc with rfl | rfl <;> omega
  · rw [size, toRat_number _ _ (Nat.ne_of_lt finite), toRat_number _ _ (Nat.ne_of_lt finite'),
      signedUnits_eq (.inl rfl), signedUnits_eq (.inl rfl), hr]
    push_cast
    ring

/-- The size of a dataset in the format of its records is at least one. -/
theorem one_le_size (p : Precision) {n : Nat} (pos : 0 < n) (word : n < 2 ^ 64) :
    ((ofNat n : Binary .double).convert : Binary p).isFinite ∧
      1 ≤ ((ofNat n : Binary .double).convert : Binary p).toRat := by
  obtain ⟨r, bound, size, _, finite⟩ := exists_convert_ofNat p pos word
  have hn : ((ofNat n : Binary .double).convert : Binary p).isFinite := by
    rw [size]
    exact isFinite_number.mpr (Nat.ne_of_lt finite)
  have one : ((ofNat 1 : Binary .double).convert : Binary p).isFinite ∧
      ((ofNat 1 : Binary .double).convert : Binary p).toRat = 1 := by
    cases p <;> decide +kernel
  have order : (ofNat 1 : Binary .double).le (ofNat n) := le_ofInt (by omega)
  exact ⟨hn, one.2 ▸ toRat_le (le_convert order) one.1 hn⟩

/-! ## Rounding up -/

/-- What is above a single-precision number is rounded to no less than it. -/
theorem le_convertedRank {j : Nat} (finite : r ≠ double.infinity) (hj : j ≤ single.infinity)
    (above : single.units j * 2 ^ double.scale ≤ double.units r * 2 ^ single.scale) :
    j ≤ double.convertedRank single r := by
  have unit := Nat.two_pow_pos double.scale
  calc j = single.nearest (single.units j * 2 ^ double.scale) (2 ^ double.scale) :=
        (nearest_units hj unit).symm
    _ ≤ single.nearest (double.units r * 2 ^ single.scale) (2 ^ double.scale) :=
        nearest_mono unit unit (Nat.mul_le_mul_right _ above)
    _ = double.convertedRank single r := by rw [convertedRank, if_neg finite]

/-- A number is below the one after its rounding. -/
theorem lt_units_succ (finite : r ≠ double.infinity)
    (h : double.convertedRank single r + 1 ≤ single.infinity) :
    double.units r * 2 ^ single.scale <
      single.units (double.convertedRank single r + 1) * 2 ^ double.scale := by
  by_contra above
  have := le_convertedRank finite h (by omega)
  omega

theorem StandsAt.finite (h : x.StandsAt r) (hx : x.isFinite) :
    r ≠ p.infinity ∧ x.toRat = (p.units r : ℚ) / 2 ^ p.scale := by
  cases h with
  | nan => cases hx
  | @number s r bound side =>
    have finite := isFinite_number.mp hx
    rw [toRat_number _ _ finite, signedUnits_eq side]
    exact ⟨finite, rfl⟩

theorem upwardRank_infinity : single.upwardRank double.infinity = single.infinity := by
  have narrow : double.convertedRank single double.infinity = single.infinity := if_pos rfl
  have wide : single.convertedRank double single.infinity = double.infinity := if_pos rfl
  rw [upwardRank, narrow, wide, if_pos (Nat.le_refl _)]

/-- A double is at most its rounding up, in the units of both. -/
theorem units_le_upwardRank (finite : r ≠ double.infinity)
    (finite' : single.upwardRank r ≠ single.infinity) :
    double.units r * 2 ^ single.scale ≤ single.units (single.upwardRank r) * 2 ^ double.scale := by
  have bound := convertedRank_le double single r
  rw [upwardRank] at finite' ⊢
  split at finite'
  next below =>
    rw [if_pos below]
    obtain ⟨k, hk, hu⟩ := exists_wide (Nat.lt_of_le_of_ne bound finite')
    have wide : single.convertedRank double (double.convertedRank single r) = k := by
      rw [convertedRank, if_neg finite', ← hu]
      exact nearest_units (Nat.le_of_lt hk) (Nat.two_pow_pos _)
    rw [wide] at below
    rw [← hu]
    exact Nat.mul_le_mul_right _ (units_le below)
  next above =>
    have next : double.convertedRank single r + 1 ≤ single.infinity := by omega
    rw [if_neg above, Nat.min_eq_left next]
    exact Nat.le_of_lt (lt_units_succ finite next)

theorem StandsAt.toRat_nonneg (h : x.StandsAt r) : 0 ≤ x.toRat := by
  cases h with
  | nan => simp [toRat, units?]
  | number _ side => exact Binary.toRat_nonneg side

/-- What is not below zero is no more than what it is rounded up to. -/
theorem StandsAt.le_roundUp {x : Binary .double} (hr : x.StandsAt r) (h : (x.roundUp p).isFinite) :
    x.isFinite ∧ x.toRat ≤ (x.roundUp p).toRat := by
  cases p with
  | double => exact ⟨h, le_refl _⟩
  | single =>
    obtain ⟨finite', value'⟩ := (hr.roundUp .single).finite h
    have finite : r ≠ double.infinity := by
      rintro rfl
      exact finite' upwardRank_infinity
    have hx : x.isFinite := by
      cases hr with
      | nan => exact (finite rfl).elim
      | number => exact isFinite_number.mpr finite
    obtain ⟨_, value⟩ := hr.finite hx
    rw [value, value', div_le_div_iff₀ (scale_pos double) (scale_pos single)]
    exact ⟨hx, by exact_mod_cast units_le_upwardRank finite finite'⟩

end Binary

end PrivateRelease
