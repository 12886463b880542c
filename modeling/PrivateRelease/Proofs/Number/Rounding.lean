import PrivateRelease.Number.Arithmetic

/-!
# Exact rounding

A rank is a significand below two binades, shifted: `e * binade + m` stands for `m * 2 ^ e` units,
and only the first two binades have significands below one. From this the ranks are in the order of
their units, a number that a format has is its own rounding, and a number of few enough bits is
in the format.
-/

namespace PrivateRelease

namespace Precision

variable {p : Precision}

theorem binade_eq (p : Precision) : p.binade = 2 ^ p.fractionBits := rfl

theorem infinity_pos (p : Precision) : 0 < p.infinity := by cases p <;> decide

/-! ## Significands -/

/-- A significand at an exponent, as ranks are made of them. The upper end belongs to the next binade
too. -/
structure Significand (p : Precision) (e m : Nat) : Prop where
  le : m ≤ 2 * p.binade
  normal : p.binade ≤ m ∨ e = 0

theorem units_of_lt {r : Nat} (h : r < 2 * p.binade) : p.units r = r := by
  have low : p.step r = 0 := by
    have := Nat.div_lt_of_lt_mul (Nat.mul_comm 2 _ ▸ h)
    unfold step
    omega
  simp [units, low]

theorem units_binade {e m : Nat} (hm : p.binade ≤ m) (h : m < 2 * p.binade) :
    p.units (e * p.binade + m) = m * 2 ^ e := by
  have high : p.step (e * p.binade + m) = e := by
    have one : m / p.binade = 1 := by
      rw [Nat.div_eq_iff p.binade_pos]
      omega
    rw [step, Nat.mul_comm, Nat.mul_add_div p.binade_pos, one]
    omega
  rw [units, high, Nat.add_sub_cancel_left]

theorem Significand.units {e m : Nat} (h : p.Significand e m) :
    p.units (e * p.binade + m) = m * 2 ^ e := by
  have hb := p.binade_pos
  have hle := h.le
  rcases Nat.lt_or_ge m (2 * p.binade) with hm | hm
  · rcases h.normal with hn | rfl
    · exact units_binade hn hm
    · simpa using units_of_lt hm
  -- The upper end is the first significand of the next binade.
  · have hm : m = 2 * p.binade := by omega
    have split : e * p.binade + m = (e + 1) * p.binade + p.binade := by
      rw [Nat.succ_mul]
      omega
    rw [split, units_binade (Nat.le_refl _) (by omega), hm, Nat.pow_succ]
    ac_rfl

/-- Every rank is made of a significand within its binade. -/
theorem exists_significand (p : Precision) (r : Nat) :
    ∃ e m, r = e * p.binade + m ∧ p.Significand e m ∧ m < 2 * p.binade := by
  have hb := p.binade_pos
  rcases Nat.lt_or_ge r (2 * p.binade) with h | h
  · exact ⟨0, r, by simp, ⟨by omega, .inr rfl⟩, h⟩
  · have hd := Nat.div_add_mod r p.binade
    have hm := Nat.mod_lt r hb
    have hq : 2 ≤ r / p.binade := (Nat.le_div_iff_mul_le hb).mpr h
    obtain ⟨e, he⟩ : ∃ e, r / p.binade = e + 1 := ⟨r / p.binade - 1, by omega⟩
    rw [he, Nat.mul_succ, Nat.mul_comm] at hd
    exact ⟨e, p.binade + r % p.binade, by omega, ⟨by omega, .inl (by omega)⟩, by omega⟩

/-! ## Order -/

/-- From one rank to the next the units grow by a power of two, which a rank of that size has. -/
theorem units_succ (p : Precision) (r : Nat) :
    ∃ e, p.units (r + 1) = p.units r + 2 ^ e ∧ p.units (r + 1) ≤ 2 * p.binade * 2 ^ e := by
  obtain ⟨e, m, rfl, h, hm⟩ := p.exists_significand r
  have next : p.Significand e (m + 1) := ⟨hm, h.normal.imp_left fun _ => by omega⟩
  refine ⟨e, ?_, ?_⟩
  · rw [Nat.add_assoc, next.units, h.units, Nat.succ_mul]
  · rw [Nat.add_assoc, next.units]
    exact Nat.mul_le_mul_right _ next.le

theorem units_lt_succ (p : Precision) (r : Nat) : p.units r < p.units (r + 1) := by
  obtain ⟨e, he, _⟩ := p.units_succ r
  have := Nat.two_pow_pos e
  omega

theorem units_lt {r s : Nat} (h : r < s) : p.units r < p.units s := by
  induction s with
  | zero => omega
  | succ s ih =>
    have step := p.units_lt_succ s
    rcases Nat.lt_or_ge r s with hr | hr
    · exact Nat.lt_trans (ih hr) step
    · rwa [show r = s by omega]

theorem units_le {r s : Nat} (h : r ≤ s) : p.units r ≤ p.units s := by
  rcases Nat.eq_or_lt_of_le h with rfl | h
  · exact Nat.le_refl _
  · exact Nat.le_of_lt (units_lt h)

/-! ## Exact rounding -/

theorem roundEven_mul (m : Nat) {c : Nat} (hc : 0 < c) : roundEven (m * c) c = m := by
  have lt : compare 0 c = .lt := Nat.compare_eq_lt.mpr hc
  simp [roundEven, Nat.mul_div_cancel _ hc, Nat.mul_mod_left, lt]

theorem log2_le {m : Nat} (hm : m < 2 * p.binade) : m.log2 ≤ p.fractionBits := by
  rcases Nat.eq_zero_or_pos m with rfl | h
  · exact Nat.zero_le _
  · rw [binade_eq, ← Nat.pow_succ'] at hm
    exact Nat.le_of_lt_succ ((Nat.log2_lt (by omega)).mpr hm)

/-- The exponent that rounding chooses for a significand within its binade is its own. -/
theorem Significand.log2_sub {e m : Nat} (h : p.Significand e m) (hm : m < 2 * p.binade) :
    (m * 2 ^ e).log2 - p.fractionBits = e := by
  rcases h.normal with low | rfl
  · have hpos : m * 2 ^ e ≠ 0 :=
      Nat.ne_of_gt (Nat.mul_pos (Nat.lt_of_lt_of_le p.binade_pos low) (Nat.two_pow_pos e))
    have bits : (m * 2 ^ e).log2 = p.fractionBits + e := by
      rw [binade_eq] at low hm
      rw [Nat.log2_eq_iff hpos, Nat.add_right_comm, Nat.pow_add, Nat.pow_add, Nat.pow_succ']
      exact ⟨Nat.mul_le_mul_right _ low, Nat.mul_lt_mul_of_pos_right hm (Nat.two_pow_pos e)⟩
    omega
  · have := log2_le hm
    rw [Nat.pow_zero, Nat.mul_one]
    omega

/-- A number of the format is its own rounding. -/
theorem nearest_units {r : Nat} (hr : r ≤ p.infinity) {c : Nat} (hc : 0 < c) :
    p.nearest (p.units r * c) c = r := by
  obtain ⟨e, m, rfl, h, hm⟩ := p.exists_significand r
  have exact : roundEven (m * 2 ^ e * c) (c * 2 ^ e) = m := by
    rw [Nat.mul_assoc, Nat.mul_comm (2 ^ e)]
    exact roundEven_mul m (Nat.mul_pos hc (Nat.two_pow_pos e))
  rw [nearest, Nat.mul_div_cancel _ hc, h.units, h.log2_sub hm, exact]
  exact Nat.min_eq_left hr

/-- A number whose significand fits is in the format. -/
theorem exists_units {m : Nat} (hm : m < 2 * p.binade) (j : Nat) :
    ∃ r, r < (j + 2) * p.binade ∧ p.units r = m * 2 ^ j := by
  have hb := p.binade_pos
  rcases Nat.eq_zero_or_pos m with rfl | pos
  · exact ⟨0, Nat.mul_pos (by omega) hb, by simp [units_zero]⟩
  -- The significand is shifted up as far as its binade and the exponent allow.
  obtain ⟨k, hk⟩ : ∃ k, m.log2 + k = p.fractionBits := ⟨_, Nat.add_sub_cancel' (log2_le hm)⟩
  have top : m * 2 ^ k < 2 * p.binade := by
    rw [binade_eq, ← Nat.pow_succ', ← hk, Nat.succ_eq_add_one, Nat.add_right_comm, Nat.pow_add]
    exact Nat.mul_lt_mul_of_pos_right Nat.lt_log2_self (Nat.two_pow_pos k)
  rcases Nat.le_total k j with hj | hj
  · obtain ⟨e, rfl⟩ := Nat.exists_eq_add_of_le hj
    have normal : p.binade ≤ m * 2 ^ k := by
      rw [binade_eq, ← hk, Nat.pow_add]
      exact Nat.mul_le_mul_right _ (Nat.log2_self_le (by omega))
    refine ⟨e * p.binade + m * 2 ^ k, ?_, ?_⟩
    · have := Nat.mul_le_mul_right p.binade (Nat.le_add_left e k)
      rw [Nat.add_mul]
      omega
    · rw [units_binade normal top, Nat.pow_add, Nat.mul_assoc]
  · have low : m * 2 ^ j < 2 * p.binade :=
      Nat.lt_of_le_of_lt (Nat.mul_le_mul_left m (Nat.pow_le_pow_right (by omega) hj)) top
    refine ⟨m * 2 ^ j, ?_, units_of_lt low⟩
    exact Nat.lt_of_lt_of_le low (Nat.mul_le_mul_right _ (by omega))

/-! ## Magnitude -/

theorem le_roundEven (num den : Nat) : num / den ≤ roundEven num den := by
  unfold roundEven
  split <;> simp

theorem roundEven_le_succ (num den : Nat) : roundEven num den ≤ num / den + 1 := by
  unfold roundEven
  split
  · exact Nat.le_succ _
  · dsimp only
    omega
  · exact Nat.le_refl _

theorem binade_le_roundEven {num den e : Nat} (h : 2 ^ (p.fractionBits + e) ≤ num / den) :
    p.binade ≤ roundEven num (den * 2 ^ e) := by
  refine Nat.le_trans ?_ (le_roundEven _ _)
  rw [← Nat.div_div_eq_div_mul, Nat.le_div_iff_mul_le (Nat.two_pow_pos e), binade_eq, ← Nat.pow_add]
  exact h

theorem roundEven_le_two_binade {num den e : Nat} (h : num / den < 2 ^ (p.fractionBits + e + 1)) :
    roundEven num (den * 2 ^ e) ≤ 2 * p.binade := by
  have above := roundEven_le_succ num (den * 2 ^ e)
  have below : num / (den * 2 ^ e) < 2 * p.binade := by
    rw [← Nat.div_div_eq_div_mul, Nat.div_lt_iff_lt_mul (Nat.two_pow_pos e), binade_eq,
      ← Nat.pow_succ', ← Nat.pow_add]
    exact Nat.lt_of_lt_of_eq h (congrArg (2 ^ ·) (by omega))
  omega

/-- What rounding makes a rank of is a significand. -/
theorem significand_roundEven (p : Precision) (num den : Nat) :
    letI e := (num / den).log2 - p.fractionBits
    p.Significand e (roundEven num (den * 2 ^ e)) := by
  generalize he : (num / den).log2 - p.fractionBits = e
  have top : num / den < 2 ^ (p.fractionBits + e + 1) :=
    Nat.lt_of_lt_of_le Nat.lt_log2_self (Nat.pow_le_pow_right (by omega) (by omega))
  refine ⟨roundEven_le_two_binade top, ?_⟩
  rcases Nat.eq_zero_or_pos e with zero | pos
  · exact .inr zero
  · have large : num / den ≠ 0 := fun zero => by simp [zero] at he; omega
    exact .inl (binade_le_roundEven ((Nat.le_log2 large).mp (by omega)))

/-- A quotient of at least `2 ^ k` is rounded to no less. -/
theorem le_nearest {num den k : Nat} (hden : 0 < den) (hk : p.fractionBits ≤ k)
    (h : 2 ^ k * den ≤ num) : min ((k - p.fractionBits + 1) * p.binade) p.infinity ≤
      p.nearest num den := by
  have quotient : 2 ^ k ≤ num / den := (Nat.le_div_iff_mul_le hden).mpr h
  have pos : num / den ≠ 0 := Nat.ne_of_gt (Nat.lt_of_lt_of_le (Nat.two_pow_pos k) quotient)
  have bits : k ≤ (num / den).log2 := (Nat.le_log2 pos).mpr quotient
  unfold nearest
  dsimp only
  generalize he : (num / den).log2 - p.fractionBits = e
  have top : 2 ^ (p.fractionBits + e) ≤ num / den := (Nat.le_log2 pos).mp (by omega)
  have low := binade_le_roundEven top
  refine Nat.le_min.mpr ⟨Nat.le_trans (Nat.min_le_left _ _) ?_, Nat.min_le_right _ _⟩
  have exponent : (k - p.fractionBits) * p.binade ≤ e * p.binade :=
    Nat.mul_le_mul_right _ (by omega)
  rw [Nat.succ_mul]
  omega

/-- A quotient below `2 ^ k` is rounded to no more. -/
theorem nearest_le_of_lt {num den k : Nat} (hden : 0 < den) (hk : p.fractionBits < k)
    (h : num < 2 ^ k * den) : p.nearest num den ≤ (k - p.fractionBits + 1) * p.binade := by
  have quotient : num / den < 2 ^ k := (Nat.div_lt_iff_lt_mul hden).mpr h
  have bits : (num / den).log2 < k := by
    rcases Nat.eq_zero_or_pos (num / den) with zero | pos
    · rw [zero]
      exact Nat.lt_of_le_of_lt (Nat.zero_le _) hk
    · exact (Nat.log2_lt (by omega)).mpr quotient
  unfold nearest
  dsimp only
  generalize he : (num / den).log2 - p.fractionBits = e
  have top : num / den < 2 ^ (p.fractionBits + e + 1) :=
    Nat.lt_of_lt_of_le Nat.lt_log2_self (Nat.pow_le_pow_right (by omega) (by omega))
  have high := roundEven_le_two_binade top
  refine Nat.le_trans (Nat.min_le_left _ _) ?_
  obtain ⟨j, hj⟩ : ∃ j, k - p.fractionBits = j + 1 := ⟨k - p.fractionBits - 1, by omega⟩
  have exponent : e * p.binade ≤ j * p.binade := Nat.mul_le_mul_right _ (by omega)
  rw [hj, Nat.succ_mul, Nat.succ_mul]
  omega

/-- The rank of a power of two that is no smaller than a binade. -/
theorem units_two_pow {k : Nat} (hk : p.fractionBits ≤ k) :
    p.units ((k - p.fractionBits + 1) * p.binade) = 2 ^ k := by
  have h : p.Significand (k - p.fractionBits) p.binade := ⟨by omega, .inl (Nat.le_refl _)⟩
  rw [Nat.succ_mul, h.units, binade_eq, ← Nat.pow_add]
  exact congrArg (2 ^ ·) (by omega)

end Precision

namespace Binary

open Precision

variable {p : Precision}

/-! ## Conversions -/

theorem rounded_units (s : Bool) {r : Nat} (hr : r ≤ p.infinity) {c : Nat} (hc : 0 < c) :
    (rounded s (p.units r * c) c : Binary p) = number s r hr := by
  simp only [rounded, nearest_units hr hc]

theorem convert_self (x : Binary p) : (x.convert : Binary p) = x := by
  cases x with
  | nan s n h => simp [convert]
  | number s r h =>
    rw [convert]
    split
    · next he =>
      subst he
      rfl
    · exact rounded_units s h (Nat.two_pow_pos _)

/-- A finite number of the narrow format is in the wide one, away from infinity. -/
theorem exists_wide {r : Nat} (hr : r < single.infinity) :
    ∃ k, k < double.infinity ∧
      double.units k * 2 ^ single.scale = single.units r * 2 ^ double.scale := by
  obtain ⟨e, m, rfl, h, hm⟩ := exists_significand single r
  have he : e < 255 := by
    have : e * single.binade < 255 * single.binade :=
      Nat.lt_of_le_of_lt (Nat.le_add_right _ m) hr
    exact Nat.lt_of_mul_lt_mul_right this
  obtain ⟨k, hk, hu⟩ := exists_units (p := double) (m := m)
    (Nat.lt_of_lt_of_le hm (by decide)) (e + 925)
  refine ⟨k, Nat.lt_of_lt_of_le hk ?_, ?_⟩
  · exact Nat.mul_le_mul_right double.binade (show e + 925 + 2 ≤ 2 ^ 11 - 1 by omega)
  · have scales : e + 925 + single.scale = e + double.scale := rfl
    rw [hu, h.units, Nat.mul_assoc, ← Nat.pow_add, scales, Nat.pow_add, Nat.mul_assoc]

/-- Widening loses nothing. -/
theorem convert_convert_number (s : Bool) (r : Nat) (h : r ≤ single.infinity) :
    ((number s r h : Binary single).convert : Binary double).convert = number s r h := by
  rcases Nat.eq_or_lt_of_le h with rfl | hr
  · simp [convert, infinite]
  obtain ⟨k, hk, hu⟩ := exists_wide hr
  have wide : ((number s r h : Binary single).convert : Binary double)
      = number s k (Nat.le_of_lt hk) := by
    rw [convert, if_neg (Nat.ne_of_lt hr), ← hu]
    exact rounded_units s (Nat.le_of_lt hk) (Nat.two_pow_pos _)
  rw [wide, convert, if_neg (Nat.ne_of_lt hk), hu]
  exact rounded_units s h (Nat.two_pow_pos _)

/-- The same number, or two NaNs of one sign, whose fractions may differ. -/
def Alike : Binary p → Binary p → Prop
  | nan s _ _, nan t _ _ => s = t
  | number s r _, number t k _ => s = t ∧ r = k
  | _, _ => False

theorem Alike.refl (x : Binary p) : x.Alike x := by
  cases x with
  | nan s n h => exact rfl
  | number s r h => exact ⟨rfl, rfl⟩

theorem alike_narrow_wide (x : Binary single) :
    x.Alike ((x.convert : Binary double).convert : Binary single) := by
  cases x with
  | nan s n h => exact rfl
  | number s r h =>
    rw [convert_convert_number]
    exact .refl _

end Binary

end PrivateRelease
