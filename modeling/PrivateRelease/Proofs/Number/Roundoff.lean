import PrivateRelease.Proofs.Number.Exact

/-!
# Rounding errors

How far the result of an operation is from the exact one. One rounding moves a value by at most a
fixed fraction of the result, and by at most half the smallest positive number more where the result
is not a whole number of units. A sum is off by no more than its additions together.
-/

namespace PrivateRelease

namespace Precision

variable {p : Precision} {num den : Nat}

/-- The fraction of a number that is half of its last place. -/
def roundoff (p : Precision) : ℚ := 1 / (2 * p.binade)

/-- Half of the smallest positive number. -/
def tiny (p : Precision) : ℚ := 1 / (2 * 2 ^ p.scale)

theorem roundoff_nonneg (p : Precision) : 0 ≤ p.roundoff := by unfold roundoff; positivity

theorem one_add_roundoff_nonneg (p : Precision) : 0 ≤ 1 + p.roundoff :=
  add_nonneg zero_le_one p.roundoff_nonneg

theorem tiny_nonneg (p : Precision) : 0 ≤ p.tiny := by unfold tiny; positivity

theorem double_tiny_le (p : Precision) : double.tiny ≤ p.tiny := by
  unfold tiny
  gcongr
  · exact one_le_two
  · cases p <;> decide

/-! ## One rounding -/

theorem two_mul_roundEven_le (num den : Nat) :
    2 * (roundEven num den * den) ≤ 2 * num + den := by
  have division := Nat.div_add_mod num den
  unfold roundEven
  rw [Nat.mul_comm] at division
  cases h : compare (2 * (num % den)) den with
  | lt => dsimp only; omega
  | eq =>
    have half := Nat.compare_eq_eq.mp h
    have up : num / den % 2 * den ≤ 1 * den := Nat.mul_le_mul_right _ (by omega)
    dsimp only
    rw [Nat.add_mul]
    omega
  | gt =>
    have more := Nat.compare_eq_gt.mp h
    dsimp only
    rw [Nat.add_mul]
    omega

theorem two_mul_le_roundEven (num : Nat) (hden : 0 < den) :
    2 * num ≤ 2 * (roundEven num den * den) + den := by
  have division := Nat.div_add_mod num den
  have rest := Nat.mod_lt num hden
  unfold roundEven
  rw [Nat.mul_comm] at division
  cases h : compare (2 * (num % den)) den with
  | lt =>
    have less := Nat.compare_eq_lt.mp h
    dsimp only
    omega
  | eq =>
    have half := Nat.compare_eq_eq.mp h
    dsimp only
    rw [Nat.add_mul]
    omega
  | gt =>
    dsimp only
    rw [Nat.add_mul]
    omega

/-- The nearest whole number is within a half. -/
theorem abs_roundEven_sub_le (num : Nat) (hden : 0 < den) :
    |(roundEven num den : ℚ) - num / den| ≤ 1 / 2 := by
  have pos : (0 : ℚ) < den := by exact_mod_cast hden
  have above : 2 * ((roundEven num den : ℚ) * den) ≤ 2 * num + den := by
    exact_mod_cast two_mul_roundEven_le num den
  have below : 2 * (num : ℚ) ≤ 2 * (roundEven num den * den) + den := by
    exact_mod_cast two_mul_le_roundEven num hden
  have division : (num : ℚ) / den * den = num := div_mul_cancel₀ _ pos.ne'
  rw [abs_le]
  constructor <;> nlinarith

/-- The nearest number is within half a step of its binade, which is a whole number of units. -/
theorem nearest_within_half_step (hden : 0 < den) (finite : p.nearest num den ≠ p.infinity) :
    ∃ e, |(p.units (p.nearest num den) : ℚ) - num / den| ≤ 2 ^ e / 2 ∧
      (p.binade * 2 ^ e ≤ p.units (p.nearest num den) ∨
        e = 0 ∧ p.units (p.nearest num den) = roundEven num den) := by
  have made := p.significand_roundEven num den
  have rank : p.nearest num den = ((num / den).log2 - p.fractionBits) * p.binade +
      roundEven num (den * 2 ^ ((num / den).log2 - p.fractionBits)) := by
    unfold nearest at finite ⊢
    dsimp only at finite ⊢
    omega
  generalize (num / den).log2 - p.fractionBits = e at made rank
  have unit : (0 : ℚ) < 2 ^ e := by positivity
  have half := abs_roundEven_sub_le num (Nat.mul_pos hden (Nat.two_pow_pos e))
  rw [rank, made.units]
  refine ⟨e, ?_, ?_⟩
  · push_cast at half ⊢
    calc |(roundEven num (den * 2 ^ e) : ℚ) * 2 ^ e - num / den|
        = |(roundEven num (den * 2 ^ e) : ℚ) - num / (den * 2 ^ e)| * 2 ^ e := by
          rw [← abs_of_pos unit, ← abs_mul, abs_of_pos unit, sub_mul, ← div_div,
            div_mul_cancel₀ _ unit.ne']
      _ ≤ 1 / 2 * 2 ^ e := mul_le_mul_of_nonneg_right half unit.le
      _ = 2 ^ e / 2 := by ring
  · refine made.normal.imp (Nat.mul_le_mul_right _) fun low => ⟨low, ?_⟩
    subst low
    simp

/-- The step of a binade is within the roundoff of its numbers. -/
theorem half_step_le {e n : Nat} (h : p.binade * 2 ^ e ≤ n) : (2 : ℚ) ^ e / 2 ≤ p.roundoff * n := by
  have pos : (0 : ℚ) < p.binade := by exact_mod_cast p.binade_pos
  have cast : (p.binade : ℚ) * 2 ^ e ≤ n := by exact_mod_cast h
  calc (2 : ℚ) ^ e / 2 = p.roundoff * (p.binade * 2 ^ e) := by
        unfold roundoff
        field_simp
    _ ≤ p.roundoff * n := mul_le_mul_of_nonneg_left cast p.roundoff_nonneg

theorem nearest_error (hden : 0 < den) (finite : p.nearest num den ≠ p.infinity) :
    |(p.units (p.nearest num den) : ℚ) - num / den| ≤
      p.roundoff * p.units (p.nearest num den) + 1 / 2 := by
  obtain ⟨e, close, large | ⟨rfl, _⟩⟩ := nearest_within_half_step hden finite
  · have := half_step_le large
    linarith
  · have := mul_nonneg p.roundoff_nonneg (Nat.cast_nonneg (p.units (p.nearest num den)))
    linarith

/-- Only bits beyond the fraction are lost where there are whole units only, and above the first
binade. -/
theorem nearest_error_normal (hden : 0 < den) (finite : p.nearest num den ≠ p.infinity)
    (h : den = 1 ∨ p.binade ≤ p.units (p.nearest num den)) :
    |(p.units (p.nearest num den) : ℚ) - num / den| ≤ p.roundoff * p.units (p.nearest num den) := by
  obtain ⟨e, close, large | ⟨rfl, same⟩⟩ := nearest_within_half_step hden finite
  · exact close.trans (half_step_le large)
  · rcases h with rfl | normal
    · have exact := roundEven_mul num Nat.one_pos
      rw [Nat.mul_one] at exact
      rw [same, exact, Nat.cast_one, div_one, sub_self, abs_zero]
      exact mul_nonneg p.roundoff_nonneg (Nat.cast_nonneg _)
    · exact close.trans (half_step_le (by simpa using normal))

/-- Quotients that are equal are rounded to the same number. -/
theorem nearest_mul_right (num : Nat) {c : Nat} (hden : 0 < den) (hc : 0 < c) :
    p.nearest (num * c) (den * c) = p.nearest num den := by
  have same : num * c * den = num * (den * c) := by ac_rfl
  have pos := Nat.mul_pos hden hc
  exact Nat.le_antisymm (nearest_mono pos hden same.le) (nearest_mono hden pos same.ge)

end Precision

namespace Binary

open Precision

variable {p q : Precision} {a x y : Binary p} {r k num den : Nat}

/-! ## Values with signs -/

def signed (negative : Bool) (v : ℚ) : ℚ := if negative then -v else v

theorem abs_signed (s : Bool) (v : ℚ) : |signed s v| = |v| := by cases s <;> simp [signed]

theorem signed_sub (s : Bool) (v w : ℚ) : signed s v - signed s w = signed s (v - w) := by
  cases s
  · rfl
  · simp only [signed, if_true]
    ring

theorem signed_div (s t : Bool) (v w : ℚ) : signed (s != t) (v / w) = signed s v / signed t w := by
  cases s <;> cases t <;> simp [signed, neg_div, div_neg]

theorem signed_div_right (s : Bool) (v w : ℚ) : signed s (v / w) = signed s v / w := by
  cases s <;> simp [signed, neg_div]

theorem signed_natAbs (n : Int) : signed (decide (n < 0)) n.natAbs = n := by
  rw [Nat.cast_natAbs, Int.cast_abs, signed]
  split
  next below =>
    have negative : (n : ℚ) < 0 := by exact_mod_cast of_decide_eq_true below
    rw [abs_of_neg negative]
    ring
  next above =>
    have nonneg : (0 : ℚ) ≤ n := by exact_mod_cast not_lt.mp (mt decide_eq_true above)
    rw [abs_of_nonneg nonneg]

theorem toRat_signed {s : Bool} {h : r ≤ p.infinity} (finite : r ≠ p.infinity) :
    (number s r h).toRat = signed s (p.units r / 2 ^ p.scale) := by
  rw [toRat_number _ _ finite]
  cases s <;> simp [signed, signedUnits, neg_div]

/-! ## One operation -/

section Rounded

variable {s : Bool}

theorem abs_rounded (h : (rounded s num den : Binary p).isFinite) :
    |(rounded s num den : Binary p).toRat| = p.units (p.nearest num den) / 2 ^ p.scale := by
  rw [rounded, toRat_signed (isFinite_number.mp h), abs_signed, abs_of_nonneg]
  positivity

theorem abs_rounded_sub (h : (rounded s num den : Binary p).isFinite) (v : ℚ) :
    |(rounded s num den : Binary p).toRat - signed s (v / 2 ^ p.scale)| =
      |(p.units (p.nearest num den) : ℚ) - v| / 2 ^ p.scale := by
  rw [rounded, toRat_signed (isFinite_number.mp h), signed_sub, abs_signed, ← sub_div, abs_div,
    abs_of_pos (scale_pos p)]

theorem rounded_error (hden : 0 < den) (h : (rounded s num den : Binary p).isFinite) :
    |(rounded s num den : Binary p).toRat - signed s (num / den / 2 ^ p.scale)| ≤
      p.roundoff * |(rounded s num den : Binary p).toRat| + p.tiny := by
  have error := nearest_error hden (isFinite_number.mp h)
  have scaled := div_le_div_of_nonneg_right error (scale_pos p).le
  rw [abs_rounded_sub h, abs_rounded h]
  refine scaled.trans_eq ?_
  unfold tiny
  ring

theorem rounded_error_normal (hden : 0 < den) (h : (rounded s num den : Binary p).isFinite)
    (normal : den = 1 ∨ p.binade ≤ p.units (p.nearest num den)) :
    |(rounded s num den : Binary p).toRat - signed s (num / den / 2 ^ p.scale)| ≤
      p.roundoff * |(rounded s num den : Binary p).toRat| := by
  have error := nearest_error_normal hden (isFinite_number.mp h) normal
  have scaled := div_le_div_of_nonneg_right error (scale_pos p).le
  rw [abs_rounded_sub h, abs_rounded h]
  exact scaled.trans_eq (mul_div_assoc _ _ _)

end Rounded

theorem ofUnits_error {s : Bool} {n : Int} (h : (ofUnits s n : Binary p).isFinite) :
    |(ofUnits s n : Binary p).toRat - n / 2 ^ p.scale| ≤
      p.roundoff * |(ofUnits s n : Binary p).toRat| := by
  unfold ofUnits at h ⊢
  split at h
  next none => simp [none]
  next some =>
    have error := rounded_error_normal Nat.one_pos h (.inl rfl)
    have value : signed (decide (n < 0)) ((n.natAbs : ℚ) / (1 : Nat) / 2 ^ p.scale) =
        n / 2 ^ p.scale := by
      rw [Nat.cast_one, div_one, signed_div_right, signed_natAbs]
    rw [if_neg some]
    rwa [value] at error

/-- The units of a whole number, rounded once. -/
theorem exists_rounded_ofInt (p : Precision) (n : Int) : ∃ num : Nat,
    (ofInt n : Binary p) = rounded (decide (n < 0)) num 1 ∧
      signed (decide (n < 0)) ((num : ℚ) / (1 : Nat) / 2 ^ p.scale) = n := by
  refine ⟨n.natAbs * 2 ^ p.scale, ofInt_eq n, ?_⟩
  rw [Nat.cast_one, div_one, Nat.cast_mul, Nat.cast_pow, Nat.cast_ofNat,
    mul_div_cancel_right₀ _ (scale_pos p).ne', signed_natAbs]

theorem ofInt_error {n : Int} (h : (ofInt n : Binary p).isFinite) :
    |(ofInt n : Binary p).toRat - n| ≤ p.roundoff * |(ofInt n : Binary p).toRat| := by
  obtain ⟨num, made, value⟩ := exists_rounded_ofInt p n
  rw [made] at h ⊢
  exact value ▸ rounded_error_normal Nat.one_pos h (.inl rfl)

theorem isFinite_of_add (h : (a + x).isFinite) : a.isFinite ∧ x.isFinite := by
  replace h : (add a x).isFinite := h
  cases a with
  | nan => cases h
  | number s r bound =>
    cases x with
    | nan => cases h
    | number t k bound' =>
      rw [isFinite_number, isFinite_number]
      rw [add] at h
      split at h
      next infinite =>
        split at h
        · cases h
        · exact absurd infinite (isFinite_number.mp h)
      · split at h
        next infinite => exact absurd infinite (isFinite_number.mp h)
        · exact ⟨‹_›, ‹_›⟩

theorem add_error (h : (a + x).isFinite) :
    |(a + x).toRat - (a.toRat + x.toRat)| ≤ p.roundoff * |(a + x).toRat| := by
  obtain ⟨ha, hx⟩ := isFinite_of_add h
  obtain ⟨s, r, bound, finite, rfl⟩ := exists_of_isFinite ha
  obtain ⟨t, k, bound', finite', rfl⟩ := exists_of_isFinite hx
  have made : number s r bound + number t k bound' =
      ofUnits (s && t) (signedUnits p s r + signedUnits p t k) := by
    show add (number s r bound) (number t k bound') = _
    rw [add, if_neg finite, if_neg finite']
  rw [made] at h ⊢
  have error := ofUnits_error h
  rwa [Int.cast_add, add_div, ← toRat_number _ bound finite, ← toRat_number _ bound' finite']
    at error

theorem sub_error (h : (a - x).isFinite) :
    a.isFinite ∧ x.isFinite ∧
      |(a - x).toRat - (a.toRat - x.toRat)| ≤ p.roundoff * |(a - x).toRat| := by
  replace h : (a + x.neg).isFinite := h
  obtain ⟨ha, hx⟩ := isFinite_of_add h
  have error := add_error h
  rw [toRat_neg, ← sub_eq_add_neg] at error
  exact ⟨ha, isFinite_neg x ▸ hx, error⟩

/-- A multiple of a number is a whole number of units, rounded once. -/
theorem ofNat_mul_error {x : Binary .double} {n : Nat} (small : n < 2 ^ 53)
    (h : (ofNat n * x).isFinite) : x.isFinite ∧
      |(ofNat n * x).toRat - n * x.toRat| ≤ double.roundoff * |(ofNat n * x).toRat| := by
  obtain ⟨r, bound, finite, units, whole⟩ := exists_ofNat_exact small
  have hx : x.isFinite := by
    replace h : (mul (ofNat n) x).isFinite := h
    rw [whole] at h
    cases x with
    | nan => cases h
    | number t k bound' =>
      rw [isFinite_number]
      rintro rfl
      rw [mul, if_pos (by simp)] at h
      split at h
      · cases h
      · simp [infinite, isFinite] at h
  obtain ⟨t, k, bound', finite', rfl⟩ := exists_of_isFinite hx
  have made : ofNat n * number t k bound' = rounded t (n * double.units k) 1 := by
    show mul (ofNat n) (number t k bound') = _
    rw [whole, mul, if_neg (by simp [finite, finite']), units]
    have same := nearest_mul_right (p := .double) (n * double.units k) Nat.one_pos
      (Nat.two_pow_pos double.scale)
    rw [Nat.one_mul, Nat.mul_right_comm] at same
    simp only [rounded, same, Bool.false_bne]
  rw [made] at h ⊢
  have error := rounded_error_normal Nat.one_pos h (.inl rfl)
  have value : signed t (((n * double.units k : Nat) : ℚ) / (1 : Nat) / 2 ^ double.scale) =
      n * (number t k bound').toRat := by
    rw [toRat_signed finite', Nat.cast_one, div_one, Nat.cast_mul, mul_div_assoc]
    cases t <;> simp [signed]
  exact ⟨hx, value ▸ error⟩

/-- A quotient of finite numbers is that of their units, rounded once. -/
theorem exists_rounded_div (hx : x.isFinite) (hy : y.isFinite) (nonzero : y.isZero = false) :
    ∃ s num den, 0 < den ∧ x / y = rounded s num den ∧
      signed s (num / den / 2 ^ p.scale) = x.toRat / y.toRat := by
  obtain ⟨s, r, bound, finite, rfl⟩ := exists_of_isFinite hx
  obtain ⟨t, k, bound', finite', rfl⟩ := exists_of_isFinite hy
  have pos : k ≠ 0 := by simpa [isZero] using nonzero
  refine ⟨s != t, p.units r * 2 ^ p.scale, p.units k, units_pos (Nat.pos_of_ne_zero pos), ?_, ?_⟩
  · show div _ _ = _
    rw [div, if_neg finite, if_neg finite', if_neg pos]
  · have value : ((p.units r * 2 ^ p.scale : Nat) : ℚ) / p.units k / 2 ^ p.scale =
        p.units r / 2 ^ p.scale / (p.units k / 2 ^ p.scale) := by
      have unit := (scale_pos p).ne'
      push_cast
      field_simp
    rw [value, signed_div, ← toRat_signed (h := bound) finite, ← toRat_signed (h := bound') finite']

theorem isFinite_of_div (hy : y.isFinite) (h : (x / y).isFinite) : x.isFinite := by
  obtain ⟨t, k, bound', finite', rfl⟩ := exists_of_isFinite hy
  replace h : (div x (number t k bound')).isFinite := h
  cases x with
  | nan => cases h
  | number s r bound =>
    rw [isFinite_number]
    rintro rfl
    rw [div, if_pos rfl, if_neg finite'] at h
    simp [infinite, isFinite] at h

theorem div_error (hy : y.isFinite) (nonzero : y.isZero = false) (h : (x / y).isFinite) :
    x.isFinite ∧ |(x / y).toRat - x.toRat / y.toRat| ≤ p.roundoff * |(x / y).toRat| + p.tiny := by
  have hx := isFinite_of_div hy h
  obtain ⟨s, num, den, pos, made, value⟩ := exists_rounded_div hx hy nonzero
  rw [made] at h ⊢
  exact ⟨hx, value ▸ rounded_error pos h⟩

/-- A conversion whose result is at least one rounds a fraction of it away. -/
theorem convert_error (h : (x.convert : Binary q).isFinite)
    (one : 1 ≤ (x.convert : Binary q).toRat) :
    |(x.convert : Binary q).toRat - x.toRat| ≤ q.roundoff * |(x.convert : Binary q).toRat| := by
  obtain ⟨s, r, bound, finite, rfl⟩ := exists_of_isFinite (isFinite_convert h)
  have made : ((number s r bound).convert : Binary q) =
      rounded s (p.units r * 2 ^ q.scale) (2 ^ p.scale) := by rw [convert, if_neg finite]
  rw [made] at h one ⊢
  have normal : q.binade ≤ q.units (q.nearest (p.units r * 2 ^ q.scale) (2 ^ p.scale)) := by
    have magnitude := abs_rounded h
    rw [eq_div_iff (scale_pos q).ne'] at magnitude
    have large : (2 : ℚ) ^ q.scale ≤
        q.units (q.nearest (p.units r * 2 ^ q.scale) (2 ^ p.scale)) := by
      rw [← magnitude]
      exact le_mul_of_one_le_left (scale_pos q).le (one.trans (le_abs_self _))
    have scale : q.fractionBits ≤ q.scale := by cases q <;> decide
    exact Nat.le_trans (Nat.pow_le_pow_right Nat.two_pos scale) (by exact_mod_cast large)
  have error := rounded_error_normal (Nat.two_pow_pos _) h (.inr normal)
  have value : ((p.units r * 2 ^ q.scale : Nat) : ℚ) / (2 ^ p.scale : Nat) / 2 ^ q.scale =
      p.units r / 2 ^ p.scale := by
    have unit := (scale_pos q).ne'
    push_cast
    field_simp
  rwa [value, ← toRat_signed (h := bound) finite] at error

theorem le_of_error {v e : ℚ} (pos : 0 ≤ x.toRat) (h : |x.toRat - v| ≤ e * |x.toRat|) :
    v ≤ (1 + e) * x.toRat := by
  rw [abs_of_nonneg pos] at h
  have := (abs_le.mp h).1
  linarith

/-- A multiple that is rounded and then rounded up is below the exact one by a fraction at most. -/
theorem ofNat_mul_le_roundUp {x : Binary .double} {n : Nat} (small : n < 2 ^ 53) (hx : x.StandsAt r)
    (h : ((ofNat n * x).roundUp q).isFinite) : x.isFinite ∧
      n * x.toRat ≤ (1 + double.roundoff) * ((ofNat n * x).roundUp q).toRat := by
  obtain ⟨k, hk⟩ := (onSide_ofInt (p := .double) (Int.natCast_nonneg n)).exists_standsAt
  have product : (ofNat n * x).StandsAt _ := hk.mul hx
  obtain ⟨finite, up⟩ := product.le_roundUp h
  obtain ⟨hx, error⟩ := ofNat_mul_error small finite
  have scaled := mul_le_mul_of_nonneg_left up double.one_add_roundoff_nonneg
  exact ⟨hx, (le_of_error product.toRat_nonneg error).trans scaled⟩

/-- As of a quotient of a multiple, whose last rounding may be of less than the smallest positive
number. -/
theorem ofNat_mul_div_le_roundUp {c k m : Nat} {x : Binary .double} {s : Binary p}
    (small : c < 2 ^ 53) (hx : x.StandsAt r) (hk : k = 1 ∨ k = 2) (pos : 0 < m) (word : m < 2 ^ 64)
    (made : (ofNat c * x / (ofNat k * ofNat m)).roundUp p = s) (hs : s.isFinite) :
    x.isFinite ∧ 0 ≤ s.toRat ∧ c * x.toRat ≤ (1 + double.roundoff) *
      (((1 + double.roundoff) * s.toRat + double.tiny) *
        (k * (ofNat m : Binary .double).toRat)) := by
  subst made
  obtain ⟨j, bound, positive, finite, size, value⟩ := ofNat_mul_ofNat hk pos word
  rw [size] at hs ⊢
  rw [← value]
  obtain ⟨i, hi⟩ := (onSide_ofInt (p := .double) (Int.natCast_nonneg c)).exists_standsAt
  have product : (ofNat c * x).StandsAt _ := hi.mul hx
  have quotient := product.div positive bound
  obtain ⟨hq, up⟩ := quotient.le_roundUp hs
  have nonzero : (number false j bound).isZero = false := by
    simpa [isZero] using Nat.ne_of_gt positive
  obtain ⟨hp, division⟩ := div_error (isFinite_number.mpr finite) nonzero hq
  obtain ⟨hx, multiple⟩ := ofNat_mul_error small hp
  have divisor : 0 < (number false j bound).toRat := by
    rw [toRat_number _ _ finite, signedUnits_eq (.inl rfl)]
    exact div_pos (by exact_mod_cast units_pos positive) (scale_pos _)
  have nonneg := quotient.toRat_nonneg
  refine ⟨hx, nonneg.trans up, ?_⟩
  have exact : (ofNat c * x).toRat / (number false j bound).toRat ≤
      (1 + double.roundoff) * ((ofNat c * x / number false j bound).roundUp p).toRat +
        double.tiny := by
    have scaled := mul_le_mul_of_nonneg_left up double.roundoff_nonneg
    rw [abs_of_nonneg nonneg] at division
    linarith [(abs_le.mp division).1]
  refine (le_of_error product.toRat_nonneg multiple).trans ?_
  exact mul_le_mul_of_nonneg_left ((div_le_iff₀ divisor).mp exact) double.one_add_roundoff_nonneg

/-! ## Sums -/

/-- The errors of adding numbers to a total, one after the other. -/
def errorsFrom : Binary p → List (Binary p) → ℚ
  | _, [] => 0
  | total, x :: xs => |(total + x).toRat - (total.toRat + x.toRat)| + errorsFrom (total + x) xs

/-- The magnitudes of the totals on the way. -/
def totalsFrom : Binary p → List (Binary p) → ℚ
  | _, [] => 0
  | total, x :: xs => |(total + x).toRat| + totalsFrom (total + x) xs

/-- What the additions of a sum round away, taken together. -/
def sumErrors (xs : List (Binary p)) : ℚ := errorsFrom (zero true) xs

/-- The magnitudes of the running totals of a sum, taken together. -/
def sumTotals (xs : List (Binary p)) : ℚ := totalsFrom (zero true) xs

theorem isFinite_of_foldl {xs : List (Binary p)} (h : (xs.foldl (· + ·) a).isFinite) :
    a.isFinite ∧ ∀ x ∈ xs, x.isFinite := by
  induction xs generalizing a with
  | nil => exact ⟨h, nofun⟩
  | cons x xs ih =>
    obtain ⟨total, rest⟩ := ih h
    obtain ⟨ha, hx⟩ := isFinite_of_add total
    exact ⟨ha, List.forall_mem_cons.mpr ⟨hx, rest⟩⟩

theorem foldl_error (a : Binary p) (xs : List (Binary p)) :
    |(xs.foldl (· + ·) a).toRat - (a.toRat + (xs.map toRat).sum)| ≤ errorsFrom a xs := by
  induction xs generalizing a with
  | nil => simp [errorsFrom]
  | cons x xs ih =>
    rw [List.foldl_cons, List.map_cons, List.sum_cons, errorsFrom]
    have rest := ih (a + x)
    have split : ((xs.foldl (· + ·) (a + x)).toRat - (a.toRat + (x.toRat + (xs.map toRat).sum))) =
        ((a + x).toRat - (a.toRat + x.toRat)) +
          ((xs.foldl (· + ·) (a + x)).toRat - ((a + x).toRat + (xs.map toRat).sum)) := by ring
    rw [split]
    exact (abs_add_le _ _).trans (add_le_add_right rest _)

theorem errorsFrom_le {xs : List (Binary p)} (h : (xs.foldl (· + ·) a).isFinite) :
    errorsFrom a xs ≤ p.roundoff * totalsFrom a xs := by
  induction xs generalizing a with
  | nil => simp [errorsFrom, totalsFrom]
  | cons x xs ih =>
    rw [errorsFrom, totalsFrom, mul_add]
    replace h : (xs.foldl (· + ·) (a + x)).isFinite := h
    exact add_le_add (add_error (isFinite_of_foldl h).1) (ih h)

/-- A sum is off by no more than its additions. -/
theorem sum_error (xs : List (Binary p)) :
    |(sum xs).toRat - (xs.map toRat).sum| ≤ sumErrors xs := by
  have error := foldl_error (zero true) xs
  rwa [toRat_zero, zero_add] at error

/-- An addition rounds a fraction of its total away. -/
theorem sumErrors_le {xs : List (Binary p)} (h : (sum xs).isFinite) :
    sumErrors xs ≤ p.roundoff * sumTotals xs := errorsFrom_le h

/-! ## Sums of one sign -/

/-- The units of a number are rounded to itself. -/
theorem ofUnits_signedUnits (s : Bool) (bound : r ≤ p.infinity) :
    (ofUnits s (signedUnits p s r) : Binary p) = number s r bound := by
  have exact := rounded_units s bound Nat.one_pos
  rw [Nat.mul_one] at exact
  rcases Nat.eq_zero_or_pos r with rfl | pos
  · have none : signedUnits p s 0 = 0 := by cases s <;> simp [signedUnits, units_zero]
    rw [none, ofUnits, if_pos rfl, zero]
  · have units := units_pos (p := p) pos
    have side : ¬(p.units r : Int) < 0 := by omega
    cases s <;> simp [ofUnits, signedUnits, ← exact, side, units, Nat.ne_of_gt units]

/-- The first addition of a sum rounds nothing. -/
theorem start_add (hx : x.isFinite) : zero true + x = x := by
  obtain ⟨s, r, bound, finite, rfl⟩ := exists_of_isFinite hx
  have start : signedUnits p true 0 = 0 := by simp [signedUnits, units_zero]
  show add (zero true) (number s r bound) = _
  rw [zero, add, if_neg (Nat.ne_of_lt p.infinity_pos), if_neg finite, Bool.true_and, start,
    Int.zero_add, ofUnits_signedUnits]

/-- Of numbers that are not below zero every addition loses a fraction of its total at most, and the
total only grows. -/
theorem le_foldl {xs : List (Binary p)} (ha : a.OnSide false) (sides : ∀ x ∈ xs, x.OnSide false)
    (h : (xs.foldl (· + ·) a).isFinite) :
    a.toRat + (xs.map toRat).sum ≤ (1 + p.roundoff) ^ xs.length * (xs.foldl (· + ·) a).toRat := by
  induction xs generalizing a with
  | nil => simp
  | cons x xs ih =>
    rw [List.forall_mem_cons] at sides
    have total := ha.add sides.1
    have rest := ih total sides.2 h
    have step := le_of_error (toRat_nonneg total) (add_error (isFinite_of_foldl (a := a + x) h).1)
    have nonneg : 0 ≤ (xs.map toRat).sum := by
      refine List.sum_nonneg ?_
      simpa using fun x hx => toRat_nonneg (sides.2 x hx)
    calc a.toRat + ((x :: xs).map toRat).sum
        = a.toRat + x.toRat + (xs.map toRat).sum := by
          rw [List.map_cons, List.sum_cons, add_assoc]
      _ ≤ (1 + p.roundoff) * (a + x).toRat + (1 + p.roundoff) * (xs.map toRat).sum :=
          add_le_add step
            (le_mul_of_one_le_left nonneg (le_add_of_nonneg_right p.roundoff_nonneg))
      _ = (1 + p.roundoff) * ((a + x).toRat + (xs.map toRat).sum) := by rw [mul_add]
      _ ≤ (1 + p.roundoff) *
            ((1 + p.roundoff) ^ xs.length * (xs.foldl (· + ·) (a + x)).toRat) :=
          mul_le_mul_of_nonneg_left rest p.one_add_roundoff_nonneg
      _ = (1 + p.roundoff) ^ (x :: xs).length * ((x :: xs).foldl (· + ·) a).toRat := by
          rw [List.length_cons, List.foldl_cons, pow_succ', mul_assoc]

/-- A sum of numbers that are not below zero has one addition less that rounds than it has summands. -/
theorem le_sum {xs : List (Binary p)} (sides : ∀ x ∈ xs, x.OnSide false) (h : (sum xs).isFinite) :
    (xs.map toRat).sum ≤ (1 + p.roundoff) ^ (xs.length - 1) * (sum xs).toRat := by
  cases xs with
  | nil => simp [sum_nil]
  | cons x xs =>
    have finite := (isFinite_of_foldl (a := zero true) h).2 x List.mem_cons_self
    rw [List.forall_mem_cons] at sides
    have made : sum (x :: xs) = xs.foldl (· + ·) x := by
      rw [sum, List.foldl_cons, start_add finite]
    rw [made] at h ⊢
    exact le_foldl sides.1 sides.2 h

end Binary

end PrivateRelease
