import Mathlib.Tactic.NormNum
import PrivateRelease.Proofs.Number.Upward

/-!
# Quotients

A quotient is rounded once. Between two significands of single precision and a third there is no quotient
too near to it: one that is above a number is above it by more than a double rounds away. So rounding to
a double first and then up to single precision rounds the exact quotient up.
-/

namespace PrivateRelease

namespace Binary

open Precision

variable {p : Precision} {x y : Binary p}

theorem isZero_eq_false (hx : x.isFinite) (h : 0 < x.toRat) : x.isZero = false :=
  Bool.eq_false_iff.mpr fun zero => h.ne' ((isZero_iff hx).mp zero)

/-! ## One rounding -/

theorem Faithful.zero_le {v : ℚ} (h : x.Faithful v) (nonneg : 0 ≤ v) : (zero false).le x :=
  h.below _ (isFinite_zero false) ((toRat_zero false).trans_le nonneg)

theorem Faithful.toRat_nonneg {v : ℚ} (h : x.Faithful v) (nonneg : 0 ≤ v) (hx : x.isFinite) :
    0 ≤ x.toRat :=
  (toRat_zero false).ge.trans (toRat_le (h.zero_le nonneg) (isFinite_zero false) hx)

/-- A value rounded once to the nearest number: none of the format is strictly between the two, and a
finite result is within half of its last place. -/
structure Nearest (v : ℚ) (x : Binary p) : Prop extends Faithful v x where
  number : x.isNaN = false
  near : x.isFinite → |x.toRat - v| ≤ p.roundoff * |x.toRat| + p.tiny

theorem Nearest.value_le {v : ℚ} (h : x.Nearest v) (nonneg : 0 ≤ v) (hx : x.isFinite) :
    v ≤ (1 + p.roundoff) * x.toRat + p.tiny := by
  have near := (abs_le.mp (h.near hx)).1
  rw [abs_of_nonneg (h.toRat_nonneg nonneg hx)] at near
  linarith

theorem nearest_div (hx : x.isFinite) (hy : y.isFinite) (nonzero : y.isZero = false) :
    (x / y).Nearest (x.toRat / y.toRat) := by
  obtain ⟨s, num, den, pos, made, value⟩ := exists_rounded_div hx hy nonzero
  rw [made, ← value]
  exact { faithful_rounded s num pos with number := rfl, near := rounded_error pos }

theorem Faithful.le_of_value {v : ℚ} {w : WithBot (WithTop ℚ)} (h : x.Faithful v)
    (number : x.isNaN = false) (hy : y.value? = some w) (above : (v : WithTop ℚ) ≤ w) : x.le y := by
  rcases infinite_or_isFinite (isNaN_of_value hy) with ⟨s, rfl⟩ | finite
  · cases (value?_infinite s).symm.trans hy
    cases s with
    | true => simp at above
    | false => exact (infinite_le number).2
  · cases (value?_of_isFinite finite).symm.trans hy
    rw [WithBot.coe_le_coe, WithTop.coe_le_coe] at above
    exact h.above y finite above

/-! ## Significands -/

/-- Of two multiples the less is less by a fraction if it is a small one. -/
theorem succ_mul_le_of_lt {m n c e : Nat} (h : m * e < n * e) (small : m < c) :
    (c + 1) * (m * e) ≤ c * (n * e) := by
  have apart : (c + 1) * m ≤ c * n :=
    calc (c + 1) * m = c * m + m := Nat.succ_mul c m
      _ ≤ c * m + c := Nat.add_le_add_left small.le _
      _ = c * (m + 1) := (Nat.mul_succ c m).symm
      _ ≤ c * n := Nat.mul_le_mul_left c (Nat.lt_of_mul_lt_mul_right h)
  rw [← Nat.mul_assoc, ← Nat.mul_assoc]
  exact Nat.mul_le_mul_right e apart

/-- A significand and a product of two, at any exponents: both are multiples of the smaller power, so
the product is less by a fraction if it is less at all. -/
theorem significands_apart {a d b i j : Nat} (ha : a < b) (hd : d < b ^ 2)
    (h : d * 2 ^ i < a * 2 ^ j) : (b ^ 2 + 1) * (d * 2 ^ i) ≤ b ^ 2 * (a * 2 ^ j) := by
  rcases Nat.le_total i j with le | le
  · obtain ⟨t, rfl⟩ := Nat.exists_eq_add_of_le le
    have scaled : a * 2 ^ (i + t) = a * 2 ^ t * 2 ^ i := by rw [Nat.pow_add]; ac_rfl
    rw [scaled] at h ⊢
    exact succ_mul_le_of_lt h hd
  · obtain ⟨t, rfl⟩ := Nat.exists_eq_add_of_le le
    have scaled : d * 2 ^ (j + t) = d * 2 ^ t * 2 ^ j := by rw [Nat.pow_add]; ac_rfl
    rw [scaled] at h ⊢
    have less : d * 2 ^ t < a := Nat.lt_of_mul_lt_mul_right h
    exact succ_mul_le_of_lt h ((less.trans ha).trans_le (Nat.le_self_pow (by decide) b))

theorem exists_significand_of_nonneg (hx : x.isFinite) (h : 0 ≤ x.toRat) :
    ∃ m e : Nat, m < 2 * p.binade ∧ x.toRat = m * 2 ^ e / 2 ^ p.scale := by
  obtain ⟨s, r, bound, finite, rfl⟩ := exists_of_isFinite hx
  obtain ⟨e, m, rank, made, small⟩ := p.exists_significand r
  refine ⟨m, e, small, ?_⟩
  rw [← abs_of_nonneg h, toRat_signed finite, abs_signed, abs_of_nonneg (by positivity), rank,
    made.units]
  push_cast
  rfl

/-- A quotient of two numbers that is above a third is above it by a fraction, the square of the
roundoff. -/
theorem quotient_apart {s : Binary p} (hx : x.isFinite) (hs : s.isFinite) (hy : y.isFinite)
    (pos : 0 < s.toRat) (nonneg : 0 ≤ y.toRat) (h : y.toRat < x.toRat / s.toRat) :
    (1 + p.roundoff ^ 2) * y.toRat ≤ x.toRat / s.toRat := by
  have positive : 0 < x.toRat := (div_pos_iff_of_pos_right pos).mp (nonneg.trans_lt h)
  obtain ⟨a, i, ha, hx⟩ := exists_significand_of_nonneg hx positive.le
  obtain ⟨b, j, hb, hs⟩ := exists_significand_of_nonneg hs pos.le
  obtain ⟨c, k, hc, hy⟩ := exists_significand_of_nonneg hy nonneg
  have unit := scale_pos p
  -- Multiplied out, both sides are whole numbers times powers of two.
  have less : c * b * 2 ^ (k + j) < a * 2 ^ (i + p.scale) := by
    rw [lt_div_iff₀ pos, hx, hs, hy, div_mul_div_comm, div_lt_div_iff₀ (by positivity) unit] at h
    have cast : (c * b * 2 ^ (k + j) : ℚ) < a * 2 ^ (i + p.scale) := by
      refine lt_of_mul_lt_mul_right ?_ unit.le
      calc (c * b * 2 ^ (k + j) : ℚ) * 2 ^ p.scale
          = c * 2 ^ k * (b * 2 ^ j) * 2 ^ p.scale := by ring
        _ < a * 2 ^ i * (2 ^ p.scale * 2 ^ p.scale) := h
        _ = a * 2 ^ (i + p.scale) * 2 ^ p.scale := by ring
    exact_mod_cast cast
  have product : c * b < (2 * p.binade) ^ 2 := by
    rw [sq]
    exact Nat.mul_lt_mul'' hc hb
  have apart : (((2 * p.binade) ^ 2 + 1) * (c * b * 2 ^ (k + j)) : ℚ) ≤
      (2 * p.binade) ^ 2 * (a * 2 ^ (i + p.scale)) := by
    exact_mod_cast significands_apart ha product less
  have base : (0 : ℚ) < 2 * p.binade := by exact_mod_cast Nat.mul_pos Nat.two_pos p.binade_pos
  unfold roundoff
  generalize (2 * p.binade : ℚ) = w at apart base
  rw [le_div_iff₀ pos, hx, hs, hy]
  calc (1 + (1 / w) ^ 2) * (c * 2 ^ k / 2 ^ p.scale) * (b * 2 ^ j / 2 ^ p.scale)
      = (w ^ 2 + 1) * (c * b * 2 ^ (k + j)) / (w ^ 2 * (2 ^ p.scale * 2 ^ p.scale)) := by
        field_simp
        ring
    _ ≤ w ^ 2 * (a * 2 ^ (i + p.scale)) / (w ^ 2 * (2 ^ p.scale * 2 ^ p.scale)) := by gcongr
    _ = a * 2 ^ i / 2 ^ p.scale := by
        field_simp
        ring

/-! ## Two roundings -/

theorem unit_le_toRat (hx : x.isFinite) (h : 0 < x.toRat) : 1 / 2 ^ p.scale ≤ x.toRat := by
  obtain ⟨s, r, bound, finite, rfl⟩ := exists_of_isFinite hx
  rw [toRat_number _ _ finite] at h ⊢
  have units : 0 < signedUnits p s r := by
    exact_mod_cast (div_pos_iff_of_pos_right (scale_pos p)).mp h
  gcongr
  exact_mod_cast units

theorem toRat_lt_of_single {x : Binary .single} (hx : x.isFinite) : x.toRat < 2 ^ 128 := by
  obtain ⟨s, r, bound, finite, rfl⟩ := exists_of_isFinite hx
  have top : single.units r < 2 ^ (128 + single.scale) := by
    have last : (128 + single.scale - single.fractionBits + 1) * single.binade = single.infinity := by
      decide
    rw [← units_two_pow (p := .single) (by decide), last]
    exact units_lt (Nat.lt_of_le_of_ne bound finite)
  refine (le_abs_self _).trans_lt ?_
  rw [toRat_signed finite, abs_signed, abs_of_nonneg (by positivity), div_lt_iff₀ (scale_pos _),
    ← pow_add]
  exact_mod_cast top

section Single

variable {x s y : Binary .single} {m : Binary .double}

/-- The quotient of two numbers of single precision as a double. -/
theorem nearest_div_convert (hx : x.isFinite) (hs : s.isFinite) (pos : 0 < s.toRat) :
    (x.convert / s.convert : Binary .double).Nearest (x.toRat / s.toRat) := by
  obtain ⟨wide, value⟩ := convert_double hx
  obtain ⟨wide', value'⟩ := convert_double hs
  rw [← value'] at pos
  rw [← value, ← value']
  exact nearest_div wide wide' (isZero_eq_false wide' pos)

/-- Such a quotient is far above what rounding to a double loses where it loses more than a fraction. -/
theorem tiny_le_quotient (hx : x.isFinite) (hs : s.isFinite) (positive : 0 < x.toRat)
    (pos : 0 < s.toRat) : double.tiny ≤ x.toRat / s.toRat / 2 ^ 60 := by
  have low := unit_le_toRat hx positive
  have high := toRat_lt_of_single hs
  have scales : (2 : ℚ) ^ (single.scale + 188) ≤ 2 * 2 ^ double.scale := by
    rw [← pow_succ']
    exact pow_le_pow_right₀ one_le_two (by decide)
  calc double.tiny ≤ 1 / 2 ^ (single.scale + 188) := by
        unfold tiny
        gcongr
    _ = 1 / 2 ^ single.scale / 2 ^ 128 / 2 ^ 60 := by
        rw [div_div, div_div, ← pow_add, ← pow_add]
    _ ≤ x.toRat / s.toRat / 2 ^ 60 := by gcongr

/-- A quotient is not rounded down to a number of single precision below it, or past one. -/
theorem not_le_convert_of_lt (hx : x.isFinite) (hs : s.isFinite) (nonneg : 0 ≤ x.toRat)
    (pos : 0 < s.toRat) (hm : m.Nearest (x.toRat / s.toRat)) (hy : y.isFinite)
    (below : y.toRat < x.toRat / s.toRat) : ¬m.le y.convert := by
  intro up
  obtain ⟨wide, value⟩ := convert_double hy
  have down := hm.below _ wide (value.trans_le below.le)
  -- The double is on both sides of the number, so it is that number.
  have finite := isFinite_of_between wide wide down up
  have same : m.toRat = y.toRat :=
    value ▸ le_antisymm (toRat_le up finite wide) (toRat_le down wide finite)
  have side := hm.toRat_nonneg (div_nonneg nonneg pos.le) finite
  have close := hm.value_le (div_nonneg nonneg pos.le) finite
  rw [same] at close side
  have apart := quotient_apart hx hs hy pos side below
  have small := tiny_le_quotient hx hs ((div_pos_iff_of_pos_right pos).mp (side.trans_lt below)) pos
  have fine : double.roundoff = 1 / 2 ^ 53 := by norm_num [roundoff, binade, fractionBits]
  have coarse : single.roundoff = 1 / 2 ^ 24 := by norm_num [roundoff, binade, fractionBits]
  rw [coarse] at apart
  rw [fine] at close
  linarith

/-- Rounding a quotient to a double first and then up gives the least number of single precision that
is not below the quotient. -/
theorem isLeast_singleUp_div (hx : x.isFinite) (hs : s.isFinite) (nonneg : 0 ≤ x.toRat)
    (pos : 0 < s.toRat) : ∃ u, (singleUp (x.convert / s.convert)).value? = some u ∧
      IsLeast {u : WithBot (WithTop ℚ) | ((x.toRat / s.toRat : ℚ) : WithTop ℚ) ≤ u ∧
        ∃ y : Binary .single, y.value? = some u} u := by
  have hm := nearest_div_convert hx hs pos
  have apart := fun y => not_le_convert_of_lt (y := y) hx hs nonneg pos hm
  generalize (x.convert / s.convert : Binary .double) = m at hm apart
  have up := le_singleUp hm.number
  have start := Binary.le_trans (hm.zero_le (div_nonneg nonneg pos.le)) up
  have number := (isNaN_singleUp m).trans hm.number
  obtain ⟨u, hu⟩ := exists_value number
  have wide := (value?_convert number).trans hu
  refine ⟨u, hu, ⟨?_, _, hu⟩, ?_⟩
  · replace start := (value_le_iff (value?_of_isFinite (isFinite_zero false)) wide).mpr start
    rcases infinite_or_isFinite number with ⟨t, top⟩ | finite
    · rw [top, value?_infinite] at hu
      cases t with
      | true => cases hu; simp at start
      | false => cases hu; exact le_top
    · cases (value?_of_isFinite finite).symm.trans hu
      rw [WithBot.coe_le_coe, WithTop.coe_le_coe]
      exact not_lt.mp fun below => apart _ finite below up
  · rintro w ⟨above, y, hy⟩
    have wide := (value?_convert (isNaN_of_value hy)).trans hy
    exact (value_le_iff hu hy).mpr (singleUp_le (hm.le_of_value hm.number wide above))

end Single

end Binary

end PrivateRelease
