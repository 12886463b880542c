import Mathlib.Analysis.SpecialFunctions.Log.Basic
import Mathlib.Analysis.SpecialFunctions.Trigonometric.Basic
import Mathlib.Data.Nat.Find
import PrivateRelease.Number.Elementary
import PrivateRelease.Proofs.Number.Comparisons

/-!
# Monotone elementary functions

What is known of the logarithm and the exponential, whose last bits no rule settles: they are monotone
where they are not below zero, and their zeros and NaNs are where they have to be. The functions of
real numbers, each rounded to nearest, are such functions.
-/

namespace PrivateRelease

/-- Rounding a monotone function to nearest leaves it monotone. The logarithm of a double above one is
far enough above zero not to be rounded to it. -/
structure Elementary.IsMonotone [Elementary] : Prop where
  ln_le : ∀ x y, Binary.lt 1 x → x.le y → (ln x).le (ln y)
  ln_pos : ∀ x, Binary.lt 1 x → Binary.lt 0 (ln x)
  expm1_le : ∀ x y, Binary.le 0 x → x.le y → (expm1 x).le (expm1 y)
  expm1_zero : (expm1 0).isZero
  ln1p_le : ∀ x y, Binary.le 0 x → x.le y → (ln1p x).le (ln1p y)
  ln1p_zero : (ln1p 0).isZero
  ln1p_nan : ∀ x, x.isNaN → (ln1p x).isNaN

namespace Elementary

open Binary Precision

namespace IsMonotone

variable [Elementary] (mono : Elementary.IsMonotone) {x y : Binary .double}

include mono

theorem ln_rises (one : Binary.lt 1 x) (h : x.le y) : (ln x).Rises (ln y) :=
  ⟨onSide_of_pos (mono.ln_pos x one), mono.ln_le x y one h⟩

theorem expm1_rises (h : x.Rises y) : (expm1 x).Rises (expm1 y) := by
  have start := mono.expm1_le 0 x (zero_le_iff.mpr (.inr rfl)) (zero_le_iff.mpr h.side)
  exact ⟨onSide_of_lower (onSide_of_isZero mono.expm1_zero false) start,
    mono.expm1_le x y (zero_le_iff.mpr h.side) h.le⟩

theorem ln1p_rises (h : x.Rises y) : (ln1p x).Rises (ln1p y) := by
  have start := mono.ln1p_le 0 x (zero_le_iff.mpr (.inr rfl)) (zero_le_iff.mpr h.side)
  exact ⟨onSide_of_lower (onSide_of_isZero mono.ln1p_zero false) start,
    mono.ln1p_le x y (zero_le_iff.mpr h.side) h.le⟩

theorem exists_standsAt_ln1p {r : Nat} (h : x.StandsAt r) : ∃ k, (ln1p x).StandsAt k := by
  cases number : x.isNaN with
  | true =>
    have result := mono.ln1p_nan x number
    generalize ln1p x = z at result
    cases z with
    | nan => exact ⟨_, .nan ..⟩
    | number => cases result
  | false => exact (mono.ln1p_rises (.refl (h.onSide number))).side.exists_standsAt

end IsMonotone

/-! ## Functions of real numbers, rounded -/

section Rounded

open Classical in
/-- The rank nearest to a real number that is not below zero, of two the larger. -/
noncomputable def nearestRank (v : ℝ) : Nat :=
  Nat.findGreatest (fun r => (double.units (r - 1) + double.units r : ℝ) ≤ 2 * (v * 2 ^ double.scale))
    double.infinity

theorem nearestRank_mono {v w : ℝ} (h : v ≤ w) : nearestRank v ≤ nearestRank w := by
  classical
  refine Nat.findGreatest_mono_left (fun r hr => hr.trans ?_) _
  gcongr

theorem nearestRank_le (v : ℝ) : nearestRank v ≤ double.infinity := Nat.findGreatest_le _

theorem nearestRank_zero : nearestRank 0 = 0 := by
  classical
  refine Nat.findGreatest_eq_zero_iff.mpr fun {r} pos _ => ?_
  have units : (0 : ℝ) < double.units r := by exact_mod_cast units_pos pos
  have below : (0 : ℝ) ≤ double.units (r - 1) := Nat.cast_nonneg _
  linarith

theorem nearestRank_pos {v : ℝ} (h : 1 ≤ 2 * (v * 2 ^ double.scale)) : 0 < nearestRank v := by
  classical
  refine Nat.findGreatest_pos.mpr ⟨1, Nat.one_pos, by decide, ?_⟩
  have one : double.units 1 = 1 := by decide
  simpa [one, units_zero] using h

/-- What is not far below one is above half of the smallest positive number. -/
theorem nearestRank_pos_of_le {v : ℝ} (h : 1 / 2 ^ 53 ≤ v) : 0 < nearestRank v := by
  have scale : (2 : ℝ) ^ 53 ≤ 2 ^ double.scale := pow_le_pow_right₀ (by norm_num) (by decide)
  refine nearestRank_pos ?_
  generalize (2 : ℝ) ^ double.scale = c at scale
  calc (1 : ℝ) ≤ 2 * (1 / 2 ^ 53 * 2 ^ 53) := by norm_num
    _ ≤ 2 * (v * c) := by gcongr

/-- The double nearest to a real number. -/
noncomputable def ofReal (v : ℝ) : Binary .double :=
  .number (decide (v < 0)) (nearestRank |v|) (nearestRank_le _)

/-- The real number that a finite number is. -/
noncomputable def toReal (s : Bool) (r : Nat) : ℝ := signedUnits double s r / 2 ^ double.scale

/-- A function at the doubles that are real numbers, with its limits at the infinities. -/
noncomputable def extend (f : ℝ → Binary .double) (left right : Binary .double) :
    Binary .double → Binary .double
  | .nan s n _ => quietNaN s n
  | .number s r _ =>
    if r = double.infinity then (if s then left else right) else f (toReal s r)

noncomputable def log (v : ℝ) : Binary .double :=
  if v < 0 then indefinite else if v = 0 then infinite true else ofReal (Real.log v)

/-- Every function rounded to nearest. -/
@[reducible] noncomputable def nearest : Elementary where
  ln := extend log indefinite (infinite false)
  expm1 := extend (fun v => ofReal (Real.exp v - 1)) (-1) (infinite false)
  ln1p := extend (fun v => log (1 + v)) indefinite (infinite false)
  cos := extend (fun v => ofReal (Real.cos v)) indefinite indefinite

theorem toReal_zero : toReal false 0 = 0 := by
  simp [toReal, signedUnits, units_zero]

theorem extend_zero (f : ℝ → Binary .double) (left right : Binary .double) :
    extend f left right 0 = f 0 := by
  show (if 0 = double.infinity then right else f (toReal false 0)) = f 0
  rw [if_neg (by decide), toReal_zero]

theorem standsAt_ofReal {v : ℝ} (h : 0 ≤ v) : (ofReal v).StandsAt (nearestRank v) := by
  have stands : (ofReal v).StandsAt (nearestRank |v|) := .number _ (.inl (by simpa using h))
  rwa [abs_of_nonneg h] at stands

theorem ofReal_rises {v w : ℝ} (pos : 0 ≤ v) (h : v ≤ w) : (ofReal v).Rises (ofReal w) :=
  Under.rises ⟨_, _, standsAt_ofReal pos, standsAt_ofReal (pos.trans h), nearestRank_mono h⟩
    rfl rfl

theorem log_eq {v : ℝ} (h : 0 < v) : log v = ofReal (Real.log v) := by
  rw [log, if_neg h.le.not_gt, if_neg h.ne']

theorem log_rises {v w : ℝ} (one : 1 ≤ v) (h : v ≤ w) : (log v).Rises (log w) := by
  have pos : 0 < v := one_pos.trans_le one
  rw [log_eq pos, log_eq (pos.trans_le h)]
  exact ofReal_rises (Real.log_nonneg one) (Real.log_le_log pos h)

theorem toReal_eq {s : Bool} {r : Nat} (hs : s = false ∨ r = 0) :
    toReal s r = double.units r / 2 ^ double.scale := by
  rw [toReal, signedUnits_eq hs, Int.cast_natCast]

theorem toReal_mono {s t : Bool} {r k : Nat} (hs : s = false ∨ r = 0) (ht : t = false ∨ k = 0)
    (h : r ≤ k) : toReal s r ≤ toReal t k := by
  have units : (double.units r : ℝ) ≤ double.units k := by exact_mod_cast units_le h
  rw [toReal_eq hs, toReal_eq ht]
  gcongr

theorem toReal_nonneg {s : Bool} {r : Nat} (hs : s = false ∨ r = 0) : 0 ≤ toReal s r := by
  rw [toReal_eq hs]
  positivity

theorem rises_infinite {x : Binary .double} (h : x.OnSide false) : x.Rises (infinite false) := by
  obtain ⟨r, hr⟩ := h.exists_standsAt
  exact Under.rises ⟨_, _, hr, standsAt_infinite, hr.le⟩ h.isNaN_eq rfl

/-- A function that rises from `least` on does so up to infinity. -/
theorem extend_rises {f : ℝ → Binary .double} {least : ℝ}
    (rises : ∀ v w, least ≤ v → v ≤ w → (f v).Rises (f w)) {left x y : Binary .double}
    (h : x.Rises y) (above : ∀ s r bound, x = .number s r bound → least ≤ toReal s r) :
    (extend f left (infinite false) x).Rises (extend f left (infinite false) y) := by
  have side := h.side
  have side' := h.right
  have order := h.le
  cases x with
  | nan => cases side
  | number s r bound =>
    cases y with
    | nan => cases side'
    | number t k bound' =>
      have ranks : r ≤ k := by
        simpa [Binary.le, position_eq side, position_eq side'] using order
      have low := above s r bound rfl
      unfold extend
      dsimp only
      by_cases top : k = double.infinity
      · rw [if_pos top, sign_of_infinite side' top]
        split
        next top' =>
          rw [sign_of_infinite side top']
          exact rises_infinite (.inl rfl)
        · exact rises_infinite (rises _ _ low (le_refl _)).side
      · rw [if_neg top, if_neg (by omega)]
        exact rises _ _ low (toReal_mono side side' ranks)

theorem toReal_one : toReal false (1023 * double.binade) = 1 := by
  have units : double.units (1023 * double.binade) = 2 ^ double.scale := by decide +kernel
  rw [toReal_eq (.inl rfl), units, Nat.cast_pow, Nat.cast_ofNat]
  exact div_self (by positivity)

/-- The next double after one is further above it than the least positive double is above zero. -/
theorem toReal_after_one : toReal false (1023 * double.binade + 1) = 1 + 1 / 2 ^ 52 := by
  have units :
      double.units (1023 * double.binade + 1) * 2 ^ 52 = 2 ^ double.scale * (2 ^ 52 + 1) := by
    decide +kernel
  rw [toReal_eq (.inl rfl)]
  -- Nothing is to be gained from evaluating the units.
  generalize double.units (1023 * double.binade + 1) = u at units
  generalize double.scale = e at units
  have cast : (u : ℝ) * 2 ^ 52 = 2 ^ e * (2 ^ 52 + 1) := by exact_mod_cast units
  field_simp
  linarith

theorem isZero_ofReal_zero : (ofReal 0).isZero := by
  have rank : nearestRank |0| = 0 := by rw [abs_zero, nearestRank_zero]
  simpa [ofReal, isZero] using rank

theorem ofReal_log_pos {v : ℝ} (h : 1 + 1 / 2 ^ 52 ≤ v) : Binary.lt 0 (ofReal (Real.log v)) := by
  have pos : 0 < v := by linarith [show (0 : ℝ) < 1 + 1 / 2 ^ 52 by positivity]
  have inverse : v⁻¹ ≤ (1 + 1 / 2 ^ 52)⁻¹ := inv_anti₀ (by positivity) h
  have far : 1 / (2 ^ 52 + 1) ≤ Real.log v := by
    have log := Real.one_sub_inv_le_log_of_pos pos
    have gap : (1 : ℝ) - (1 + 1 / 2 ^ 52)⁻¹ = 1 / (2 ^ 52 + 1) := by norm_num
    linarith
  have rank := nearestRank_pos_of_le (le_trans (by norm_num) far)
  have positive : 0 ≤ Real.log v := le_trans (by positivity) far
  have stands : (ofReal (Real.log v)).StandsAt (nearestRank (Real.log v)) := standsAt_ofReal positive
  exact ((standsAt_zero false).lt_iff stands rfl rfl).mpr rank

/-- The double before one is below it by half as much. -/
theorem toReal_before_one : toReal false (1023 * double.binade - 1) = 1 - 1 / 2 ^ 53 := by
  have units :
      double.units (1023 * double.binade - 1) * 2 ^ 53 + 2 ^ double.scale =
        2 ^ double.scale * 2 ^ 53 := by
    decide +kernel
  rw [toReal_eq (.inl rfl)]
  generalize double.units (1023 * double.binade - 1) = u at units
  generalize double.scale = e at units
  have cast : (u : ℝ) * 2 ^ 53 + 2 ^ e = 2 ^ e * 2 ^ 53 := by exact_mod_cast units
  field_simp
  linarith

theorem ofReal_log_neg {v : ℝ} (pos : 0 < v) (h : v ≤ 1 - 1 / 2 ^ 53) :
    (ofReal (Real.log v)).lt 0 := by
  have far : Real.log v ≤ -(1 / 2 ^ 53) := by linarith [Real.log_le_sub_one_of_pos pos]
  have negative : Real.log v < 0 := far.trans_lt (by norm_num)
  have rank : 0 < nearestRank |Real.log v| := by
    rw [abs_of_neg negative]
    exact nearestRank_pos_of_le (le_neg_of_le_neg far)
  have zero : (0 : Binary .double).position = some 0 := position_zero false
  rw [Binary.lt, zero, ofReal, decide_eq_true negative]
  simpa [position] using rank

end Rounded

/-- Rounding to nearest makes monotone functions of monotone functions. -/
theorem nearest_isMonotone : letI := nearest; Elementary.IsMonotone := by
  let _ := nearest
  have onSide : ∀ {x : Binary .double}, Binary.le 0 x → ∀ s r bound, x = .number s r bound →
      0 ≤ toReal s r := by
    rintro _ pos s r bound rfl
    exact toReal_nonneg (zero_le_iff.mp pos)
  refine ⟨fun x y one h => ?_, fun x one => ?_, fun x y pos h => ?_, ?_, fun x y pos h => ?_, ?_,
    fun x h => ?_⟩
  · obtain ⟨r, bound, after, rfl⟩ := exists_after_one one
    have rises : (Binary.number false r bound).Rises y := ⟨.inl rfl, h⟩
    refine (extend_rises (fun v w => log_rises) rises ?_).le
    rintro s k _ ⟨⟩
    rw [← toReal_one]
    exact toReal_mono (.inl rfl) (.inl rfl) (by omega)
  · obtain ⟨r, bound, after, rfl⟩ := exists_after_one one
    have apart := toReal_mono (.inl rfl) (.inl rfl) after
    rw [toReal_after_one] at apart
    show Binary.lt 0 (extend log indefinite (infinite false) (.number false r bound))
    unfold extend
    dsimp only
    split
    · exact ((standsAt_zero false).lt_iff standsAt_infinite rfl rfl).mpr double.infinity_pos
    · have pos : 0 < toReal false r := lt_of_lt_of_le (by positivity) apart
      rw [log_eq pos]
      exact ofReal_log_pos apart
  · refine (extend_rises (fun v w hv hw => ?_) ⟨zero_le_iff.mp pos, h⟩ (onSide pos)).le
    have exp := Real.exp_le_exp.mpr hw
    exact ofReal_rises (by linarith [Real.one_le_exp hv]) (by linarith)
  · show (extend (fun v => ofReal (Real.exp v - 1)) _ _ 0).isZero
    rw [extend_zero, Real.exp_zero, sub_self]
    exact isZero_ofReal_zero
  · refine (extend_rises (fun v w hv hw => ?_) ⟨zero_le_iff.mp pos, h⟩ (onSide pos)).le
    exact log_rises (by linarith) (by linarith)
  · show (extend (fun v => log (1 + v)) _ _ 0).isZero
    rw [extend_zero, add_zero, log_eq one_pos, Real.log_one]
    exact isZero_ofReal_zero
  · cases x with
    | nan => rfl
    | number => cases h

end Elementary

end PrivateRelease
