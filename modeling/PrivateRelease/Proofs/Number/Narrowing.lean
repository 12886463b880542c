import PrivateRelease.Proofs.Number.Roundoff

/-!
# Narrowing

What becomes of a number that another format takes. The result is the number itself if the format has
it, and otherwise one of the two numbers of the format around it. All that is within half of the
smallest positive number becomes a zero, whatever its sign.
-/

namespace PrivateRelease

namespace Precision

variable {p : Precision} {num den : Nat}

theorem roundEven_eq_zero_iff (hden : 0 < den) : roundEven num den = 0 ↔ 2 * num ≤ den := by
  have rest := Nat.mod_lt num hden
  have quotient : num / den = 0 ↔ num < den := Nat.div_eq_zero_iff_lt hden
  have small : num < den → num % den = num := Nat.mod_eq_of_lt
  unfold roundEven
  generalize num / den = n at quotient
  generalize num % den = m at small rest
  cases h : compare (2 * m) den with
  | lt =>
    have less := Nat.compare_eq_lt.mp h
    dsimp only
    omega
  | eq =>
    have half := Nat.compare_eq_eq.mp h
    dsimp only
    omega
  | gt =>
    have more := Nat.compare_eq_gt.mp h
    dsimp only
    omega

/-- A quotient of no more than one half is rounded to zero, and nothing else is. -/
theorem nearest_eq_zero_iff (hden : 0 < den) : p.nearest num den = 0 ↔ 2 * num ≤ den := by
  have top := p.infinity_pos
  have unit := p.binade_pos
  unfold nearest
  dsimp only
  generalize he : (num / den).log2 - p.fractionBits = e
  rcases Nat.eq_zero_or_pos e with rfl | pos
  · rw [Nat.zero_mul, Nat.zero_add, Nat.pow_zero, Nat.mul_one, ← roundEven_eq_zero_iff hden]
    omega
  · -- Past the first binade there are no small quotients.
    have large : num / den ≠ 0 := fun zero => by simp [zero] at he; omega
    have above : den ≤ num := Nat.le_of_not_lt fun below => large (Nat.div_eq_of_lt below)
    have exponent : 1 * p.binade ≤ e * p.binade := Nat.mul_le_mul_right _ pos
    refine iff_of_false ?_ ?_ <;> omega

end Precision

namespace Binary

open Precision

variable {p q : Precision} {x y : Binary p} {r k num den : Nat}

/-! ## Order and values -/

theorem signedUnits_lt {s t : Bool} {h : r ≤ p.infinity} {h' : k ≤ p.infinity}
    (lt : (number s r h).lt (number t k h')) : signedUnits p s r < signedUnits p t k := by
  have up : r < k → p.units r < p.units k := units_lt
  have down : k < r → p.units k < p.units r := units_lt
  have pos : 0 < r → 0 < p.units r := units_pos
  have pos' : 0 < k → 0 < p.units k := units_pos
  cases s <;> cases t <;> simp [Binary.lt, position] at lt <;> simp only [signedUnits] <;> grind

/-- Finite numbers are in the order of their values. -/
theorem le_of_toRat (hx : x.isFinite) (hy : y.isFinite) (h : x.toRat ≤ y.toRat) : x.le y := by
  obtain ⟨s, r, bound, finite, rfl⟩ := exists_of_isFinite hx
  obtain ⟨t, k, bound', finite', rfl⟩ := exists_of_isFinite hy
  rw [toRat_number _ _ finite, toRat_number _ _ finite',
    div_le_div_iff_of_pos_right (scale_pos p), Int.cast_le] at h
  by_contra above
  have order : (number t k bound').lt (number s r bound) := by
    simpa [Binary.le, Binary.lt, position] using above
  exact absurd (signedUnits_lt order) (not_lt.mpr h)

theorem isNaN_of_isFinite (hx : x.isFinite) : x.isNaN = false := by
  obtain ⟨s, r, bound, _, rfl⟩ := exists_of_isFinite hx
  rfl

theorem isZero_iff (hx : x.isFinite) : x.isZero ↔ x.toRat = 0 := by
  obtain ⟨s, r, bound, finite, rfl⟩ := exists_of_isFinite hx
  rw [toRat_number _ _ finite, div_eq_zero_iff, Int.cast_eq_zero]
  have unit := (scale_pos p).ne'
  have units : p.units r = 0 ↔ r = 0 := by
    refine ⟨fun none => ?_, fun none => by rw [none, units_zero]⟩
    by_contra some
    exact absurd none (units_pos (Nat.pos_of_ne_zero some)).ne'
  cases s <;> simp [isZero, signedUnits, units]

theorem lt_iff_toRat_lt (hx : x.isFinite) (hy : y.isFinite) : x.lt y ↔ x.toRat < y.toRat := by
  have total : x.lt y ↔ ¬y.le x := by
    obtain ⟨i, hi⟩ := exists_position (isNaN_of_isFinite hx)
    obtain ⟨j, hj⟩ := exists_position (isNaN_of_isFinite hy)
    simp [Binary.lt, Binary.le, hi, hj]
  rw [total, ← not_le]
  exact not_congr ⟨fun h => toRat_le h hy hx, le_of_toRat hy hx⟩

theorem lt_zero_iff {x : Binary .double} (hx : x.isFinite) : x.lt 0 ↔ x.toRat < 0 := by
  have zero : (0 : Binary .double).toRat = 0 := toRat_zero false
  rw [lt_iff_toRat_lt hx rfl, zero]

theorem zero_lt_iff {x : Binary .double} (hx : x.isFinite) : Binary.lt 0 x ↔ 0 < x.toRat := by
  have zero : (0 : Binary .double).toRat = 0 := toRat_zero false
  rw [lt_iff_toRat_lt rfl hx, zero]

theorem exists_of_lt_zero {x : Binary .double} (h : x.lt 0) :
    ∃ r bound, 0 < r ∧ x = number true r bound := by
  have start : (0 : Binary .double).position = some 0 := position_zero false
  cases x with
  | nan => cases h
  | number s r bound =>
    rw [Binary.lt, start] at h
    cases s with
    | false =>
      simp only [position, Bool.false_eq_true, if_false, decide_eq_true_eq] at h
      omega
    | true => exact ⟨r, bound, by simpa [position] using h, rfl⟩

/-! ## Zero -/

theorem isFinite_zero (s : Bool) : (zero s : Binary p).isFinite :=
  isFinite_number.mpr (Nat.ne_of_lt p.infinity_pos)

theorem convert_zero (s : Bool) : ((zero s : Binary p).convert : Binary q) = zero s := by
  rw [zero, convert_number]
  simp only [convertedRank_zero, zero]

/-- What is within half of the smallest positive number becomes a zero, and nothing else does. -/
theorem isZero_convert_iff (hx : x.isFinite) :
    (x.convert : Binary q).isZero ↔ |x.toRat| ≤ q.tiny := by
  obtain ⟨s, r, bound, finite, rfl⟩ := exists_of_isFinite hx
  have made : ((number s r bound).convert : Binary q).isZero ↔
      q.nearest (p.units r * 2 ^ q.scale) (2 ^ p.scale) = 0 := by
    rw [convert, if_neg finite]
    simp [isZero, rounded]
  rw [made, nearest_eq_zero_iff (Nat.two_pow_pos _), toRat_signed finite, abs_signed, abs_of_nonneg
    (by positivity), tiny, div_le_div_iff₀ (scale_pos p) (by positivity), one_mul]
  rw [show 2 * (p.units r * 2 ^ q.scale) = p.units r * (2 * 2 ^ q.scale) by ac_rfl]
  exact_mod_cast Iff.rfl

/-! ## Faithful rounding -/

/-- The double of a number is made into the number again. -/
theorem convert_convert (hx : x.isNaN = false) :
    ((x.convert : Binary .double).convert : Binary p) = x := by
  cases p with
  | double => rw [convert_self, convert_self]
  | single =>
    cases x with
    | nan => cases hx
    | number s r bound => exact convert_convert_number s r bound

/-- A number and its double are finite together, and of one value. -/
theorem convert_double_iff {P : ℚ → Prop} :
    (x.convert : Binary .double).isFinite ∧ P (x.convert : Binary .double).toRat ↔
      x.isFinite ∧ P x.toRat := by
  constructor
  · rintro ⟨wide, holds⟩
    have finite := isFinite_convert wide
    exact ⟨finite, (convert_double finite).2 ▸ holds⟩
  · rintro ⟨finite, holds⟩
    obtain ⟨wide, value⟩ := convert_double finite
    exact ⟨wide, value.symm ▸ holds⟩

/-- No number of the format lies strictly between a value and the number that it becomes. -/
structure Faithful (v : ℚ) (x : Binary p) : Prop where
  below : ∀ y : Binary p, y.isFinite → y.toRat ≤ v → y.le x
  above : ∀ y : Binary p, y.isFinite → v ≤ y.toRat → x.le y

theorem faithful_toRat (hx : x.isFinite) : x.Faithful x.toRat where
  below _ hy := le_of_toRat hy hx
  above _ hy := le_of_toRat hx hy

theorem le_nearest_of_units (hden : 0 < den) (h : k ≤ p.infinity) (below : p.units k * den ≤ num) :
    k ≤ p.nearest num den := by
  rw [← nearest_units h hden]
  exact nearest_mono hden hden (Nat.mul_le_mul_right den below)

theorem nearest_le_of_units (hden : 0 < den) (h : k ≤ p.infinity) (above : num ≤ p.units k * den) :
    p.nearest num den ≤ k := by
  rw [← nearest_units h hden]
  exact nearest_mono hden hden (Nat.mul_le_mul_right den above)

/-- A value against a quotient of units, multiplied out. -/
theorem toRat_le_signed_iff {s t : Bool} {h : k ≤ p.infinity} (finite : k ≠ p.infinity)
    (hden : 0 < den) :
    ((number t k h).toRat ≤ signed s (num / den / 2 ^ p.scale) ↔
      signedUnits p t k * den ≤ if s then -(num : Int) else num) ∧
    (signed s (num / den / 2 ^ p.scale) ≤ (number t k h).toRat ↔
      (if s then -(num : Int) else num) ≤ signedUnits p t k * den) := by
  have pos : (0 : ℚ) < den := by exact_mod_cast hden
  have value : signed s (num / den / 2 ^ p.scale) =
      ((if s then -(num : Int) else num : Int) : ℚ) / den / 2 ^ p.scale := by
    cases s <;> simp [signed, neg_div]
  rw [toRat_number _ _ finite, value, div_le_div_iff_of_pos_right (scale_pos p),
    div_le_div_iff_of_pos_right (scale_pos p), le_div_iff₀ pos, div_le_iff₀ pos]
  constructor <;> exact_mod_cast Iff.rfl

theorem faithful_rounded (s : Bool) (num : Nat) (hden : 0 < den) :
    (rounded s num den : Binary p).Faithful (signed s (num / den / 2 ^ p.scale)) := by
  have none : num = 0 → p.nearest num den = 0 := fun zero => zero ▸ p.nearest_zero hden
  constructor
  · intro y hy below
    obtain ⟨t, k, bound, finite, rfl⟩ := exists_of_isFinite hy
    replace below := (toRat_le_signed_iff finite hden).1.mp below
    have up : p.units k * den ≤ num → k ≤ p.nearest num den := le_nearest_of_units hden bound
    have down : num ≤ p.units k * den → p.nearest num den ≤ k := nearest_le_of_units hden bound
    have some : 0 < k → 0 < p.units k * den := fun pos => Nat.mul_pos (units_pos pos) hden
    cases s <;> cases t <;>
      simp [Binary.le, rounded, position, signedUnits] at below ⊢ <;> norm_cast at below <;> omega
  · intro y hy above
    obtain ⟨t, k, bound, finite, rfl⟩ := exists_of_isFinite hy
    replace above := (toRat_le_signed_iff finite hden).2.mp above
    have up : p.units k * den ≤ num → k ≤ p.nearest num den := le_nearest_of_units hden bound
    have down : num ≤ p.units k * den → p.nearest num den ≤ k := nearest_le_of_units hden bound
    have some : 0 < k → 0 < p.units k * den := fun pos => Nat.mul_pos (units_pos pos) hden
    cases s <;> cases t <;>
      simp [Binary.le, rounded, position, signedUnits] at above ⊢ <;> norm_cast at above <;> omega

theorem faithful_ofInt (n : Int) : (ofInt n : Binary p).Faithful n := by
  obtain ⟨num, made, value⟩ := exists_rounded_ofInt p n
  rw [made, ← value]
  exact faithful_rounded _ num Nat.one_pos

theorem Faithful.convert {v : ℚ} {x : Binary .double} (h : x.Faithful v) :
    (x.convert : Binary p).Faithful v := by
  constructor
  · intro y hy below
    obtain ⟨wide, value⟩ := convert_double hy
    have order := le_convert (q := p) (h.below _ wide (value.trans_le below))
    rwa [convert_convert (isNaN_of_isFinite hy)] at order
  · intro y hy above
    obtain ⟨wide, value⟩ := convert_double hy
    have order := le_convert (q := p) (h.above _ wide (above.trans_eq value.symm))
    rwa [convert_convert (isNaN_of_isFinite hy)] at order

/-- A value that the format has becomes just that number. -/
theorem Faithful.toRat_eq {v : ℚ} (h : x.Faithful v) (hy : y.isFinite) (value : y.toRat = v) :
    x.isFinite ∧ x.toRat = v := by
  have low := h.below y hy value.le
  have high := h.above y hy value.ge
  have hx := isFinite_of_between hy hy low high
  exact ⟨hx, le_antisymm (value ▸ toRat_le high hx hy) (value ▸ toRat_le low hy hx)⟩

end Binary

end PrivateRelease
