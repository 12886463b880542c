import Mathlib.Algebra.Order.Field.Power
import Mathlib.Algebra.Order.Field.Rat
import Mathlib.Data.List.TakeWhile
import Mathlib.Data.Nat.Cast.Order.Field
import Mathlib.Tactic.FieldSimp
import Mathlib.Tactic.Linarith
import Mathlib.Tactic.Positivity
import Mathlib.Tactic.Ring
import PrivateRelease.Number.Decimal
import PrivateRelease.Proofs.Number.Rounding

/-!
# Shortest digits

Seventeen digits always round to the number they came from: at that length the distance of two
decimals is less than half of the distance of the two neighbours of the number. So `shortest` finds a
decimal that rounds to the number, and no other number has it too.
-/

namespace PrivateRelease

namespace Decimal

open Precision

/-- The number that a decimal stands for. -/
def value (d : Decimal) : ℚ := d.significand * 10 ^ d.exponent

/-- The number, in units, that `v` stands for rounds to the rank: it lies between the midpoints to the
neighbours, which themselves belong to an even rank. -/
def Rounds (p : Precision) (rank : Nat) (v : ℚ) : Prop :=
  if rank % 2 = 0 then
    (p.units (rank - 1) + p.units rank : ℚ) ≤ 2 * v ∧
      2 * v ≤ (p.units rank + p.units (rank + 1) : ℚ)
  else
    (p.units (rank - 1) + p.units rank : ℚ) < 2 * v ∧
      2 * v < (p.units rank + p.units (rank + 1) : ℚ)

variable {p : Precision} {r s : Nat} {v : ℚ}

theorem Rounds.le (h : Rounds p r v) : (p.units (r - 1) + p.units r : ℚ) ≤ 2 * v ∧
    2 * v ≤ (p.units r + p.units (r + 1) : ℚ) := by
  unfold Rounds at h
  split at h
  · exact h
  · exact ⟨h.1.le, h.2.le⟩

theorem rounds_of_lt (h : (p.units (r - 1) + p.units r : ℚ) < 2 * v)
    (h' : 2 * v < (p.units r + p.units (r + 1) : ℚ)) : Rounds p r v := by
  unfold Rounds
  split
  · exact ⟨h.le, h'.le⟩
  · exact ⟨h, h'⟩

theorem Rounds.not_lt (hr : Rounds p r v) (hs : Rounds p s v) : ¬ r < s := by
  intro h
  obtain ⟨_, high⟩ := hr.le
  obtain ⟨low, _⟩ := hs.le
  rcases Nat.eq_or_lt_of_le (Nat.succ_le_of_lt h) with rfl | h
  -- Of two neighbours one has odd rank, and the midpoint is not its own.
  · unfold Rounds at hr hs
    rw [Nat.succ_sub_one] at hs low
    rcases Nat.mod_two_eq_zero_or_one r with even | odd
    · rw [if_neg (by omega)] at hs
      linarith [hs.1]
    · rw [if_neg (by omega)] at hr
      linarith [hr.2]
  · have below : (p.units r : ℚ) < p.units (s - 1) := by exact_mod_cast units_lt (by omega)
    have above : (p.units (r + 1) : ℚ) < p.units s := by exact_mod_cast units_lt h
    linarith

/-- No number rounds to two ranks. -/
theorem Rounds.unique (hr : Rounds p r v) (hs : Rounds p s v) : r = s :=
  Nat.le_antisymm (Nat.le_of_not_lt (hs.not_lt hr)) (Nat.le_of_not_lt (hr.not_lt hs))

/-- The comparisons of `roundsTo`, with the powers of ten on one side. -/
theorem roundsTo_iff_of_eq {d : Nat} {k : Int} {up down : Nat} (pos : 0 < down)
    (shape : (if k < 0 then (1, 10 ^ k.natAbs) else (10 ^ k.natAbs, 1)) = (up, down))
    (power : (10 ^ k : ℚ) = up / down) :
    roundsTo p r d k ↔ Rounds p r ((d * 10 ^ k) * 2 ^ p.scale) := by
  have pos : (0 : ℚ) < down := by exact_mod_cast pos
  have twice : 2 * ((d * 10 ^ k) * 2 ^ p.scale : ℚ) = (d * up * 2 ^ (p.scale + 1) : ℕ) / down := by
    rw [power]
    push_cast
    ring
  unfold roundsTo Rounds
  rw [shape, twice, le_div_iff₀ pos, div_le_iff₀ pos, lt_div_iff₀ pos, div_lt_iff₀ pos]
  dsimp only
  norm_cast
  split <;> simp

theorem roundsTo_iff {d : Nat} {k : Int} :
    roundsTo p r d k ↔ Rounds p r ((d * 10 ^ k) * 2 ^ p.scale) := by
  by_cases h : k < 0
  · refine roundsTo_iff_of_eq (by positivity) (if_pos h) ?_
    obtain ⟨n, rfl⟩ : ∃ n : Nat, k = -(n : Int) := ⟨k.natAbs, by omega⟩
    simp
  · refine roundsTo_iff_of_eq Nat.one_pos (if_neg h) ?_
    obtain ⟨n, rfl⟩ : ∃ n : Nat, k = n := ⟨k.natAbs, by omega⟩
    simp

/-! ## Lengths -/

theorem ten_pow_length_le {n : Nat} (pos : 0 < n) : 10 ^ (length n - 1) ≤ n := by
  have nonempty : 0 < length n := Nat.length_toDigits_pos
  by_contra short
  rcases Nat.eq_zero_or_pos (length n - 1) with zero | many
  · rw [zero] at short
    omega
  · have := (Nat.length_toDigits_le_iff (by omega) many).mpr (Nat.lt_of_not_le short)
    unfold length at *
    omega

theorem lt_ten_pow_length (n : Nat) : n < 10 ^ length n :=
  (Nat.length_toDigits_le_iff (by omega) Nat.length_toDigits_pos).mp (Nat.le_refl _)

/-- The leading digit of a positive quotient stands at `leading` or above. -/
theorem ten_pow_leading_le {num den : Nat} (hn : 0 < num) (hd : 0 < den) :
    (10 ^ leading num den : ℚ) ≤ num / den := by
  have hd' : (0 : ℚ) < den := by exact_mod_cast hd
  unfold leading
  split
  · next h =>
    have quotient : 0 < num / den := Nat.div_pos h hd
    have digits : (10 ^ (length (num / den) - 1) : ℚ) ≤ (num / den : ℕ) := by
      exact_mod_cast ten_pow_length_le quotient
    obtain ⟨m, hm⟩ : ∃ m, length (num / den) = m + 1 :=
      ⟨length (num / den) - 1, (Nat.succ_pred_eq_of_pos Nat.length_toDigits_pos).symm⟩
    rw [hm, Nat.add_sub_cancel] at digits
    rw [hm, Nat.cast_add, Nat.cast_one, add_sub_cancel_right, zpow_natCast]
    exact digits.trans Nat.cast_div_le
  · next h =>
    -- The inverse is rounded up, so that its digits bound it.
    have inverse : den ≤ num * ((den + num - 1) / num) := by
      have := Nat.div_add_mod (den + num - 1) num
      have := Nat.mod_lt (den + num - 1) hn
      omega
    have digits := lt_ten_pow_length ((den + num - 1) / num - 1)
    have bound : den ≤ num * 10 ^ length ((den + num - 1) / num - 1) :=
      inverse.trans (Nat.mul_le_mul_left _ (by omega))
    rw [zpow_neg, zpow_natCast, le_div_iff₀ hd', inv_mul_le_iff₀ (by positivity), mul_comm]
    exact_mod_cast bound

/-! ## Candidates -/

theorem scaled_snd_pos (num : Nat) {den : Nat} (hd : 0 < den) (k : Int) : 0 < (scaled num den k).2 := by
  unfold scaled
  split
  · exact hd
  · positivity

theorem scaled_div (num den : Nat) (k : Int) :
    ((scaled num den k).1 / (scaled num den k).2 : ℚ) = num / den / 10 ^ k := by
  unfold scaled
  split
  · obtain ⟨n, rfl⟩ : ∃ n : Nat, k = -(n : Int) := ⟨k.natAbs, by omega⟩
    rw [Int.natAbs_neg, Int.natAbs_natCast, zpow_neg, zpow_natCast, div_inv_eq_mul]
    push_cast
    ring
  · obtain ⟨n, rfl⟩ : ∃ n : Nat, k = n := ⟨k.natAbs, by omega⟩
    rw [Int.natAbs_natCast, zpow_natCast, div_div]
    push_cast
    rfl

theorem withDigits?_rounds {n : Nat} {d : Decimal} (h : withDigits? p r n = some d) :
    Rounds p r (d.value * 2 ^ p.scale) := by
  unfold withDigits? at h
  dsimp only at h
  split at h
  · next below above =>
    cases h
    unfold value
    dsimp only
    split
    · exact roundsTo_iff.mp below
    · exact roundsTo_iff.mp above
  · next below _ =>
    cases h
    exact roundsTo_iff.mp below
  · next _ above =>
    cases h
    exact roundsTo_iff.mp above
  · cases h

/-- Around a number its neighbours are apart by its size over a binade. -/
theorem units_lt_gap (p : Precision) (pos : 0 < r) :
    (p.units r : ℚ) < p.binade * (p.units (r + 1) - p.units (r - 1)) := by
  obtain ⟨s, rfl⟩ : ∃ s, r = s + 1 := ⟨r - 1, by omega⟩
  obtain ⟨e, step, bound⟩ := p.units_succ s
  obtain ⟨e', step', bound'⟩ := p.units_succ (s + 1)
  have power : (0 : ℚ) < 2 ^ e' := by positivity
  have step : (p.units (s + 1) : ℚ) = p.units s + 2 ^ e := by exact_mod_cast step
  have step' : (p.units (s + 1 + 1) : ℚ) = p.units (s + 1) + 2 ^ e' := by exact_mod_cast step'
  have bound : (p.units (s + 1) : ℚ) ≤ 2 * p.binade * 2 ^ e := by exact_mod_cast bound
  have bound' : (p.units (s + 1 + 1) : ℚ) ≤ 2 * p.binade * 2 ^ e' := by exact_mod_cast bound'
  have apart : (p.units (s + 1 + 1) - p.units s : ℚ) = 2 ^ e + 2 ^ e' := by linarith
  rw [Nat.add_sub_cancel, apart, mul_add]
  linarith

/-- Of two decimals around a number one rounds to it, if they are a small enough part of it apart. -/
theorem rounds_or_rounds (pos : 0 < r) {t : ℚ} (ht : 0 < t) {below : Nat}
    (small : 10 ^ 16 * t ≤ p.units r) (hb : below * t ≤ p.units r)
    (ha : (p.units r : ℚ) < (below + 1) * t) :
    Rounds p r (below * t) ∨ Rounds p r ((below + 1) * t) := by
  have gap := units_lt_gap p pos
  have left : (p.units (r - 1) : ℚ) < p.units r := by exact_mod_cast units_lt (by omega)
  have right : (p.units r : ℚ) < p.units (r + 1) := by exact_mod_cast p.units_lt_succ r
  by_cases low : (p.units (r - 1) + p.units r : ℚ) < 2 * (below * t)
  · exact .inl (rounds_of_lt low (by linarith))
  refine .inr (rounds_of_lt (by linarith) ?_)
  by_contra high
  have apart : (p.units (r + 1) - p.units (r - 1) : ℚ) ≤ 2 * t := by linarith
  have binade : (p.binade : ℚ) ≤ 2 ^ 52 := by
    exact_mod_cast show p.binade ≤ 2 ^ 52 by cases p <;> decide
  have : (p.units r : ℚ) < 2 ^ 52 * (2 * t) := calc
    (p.units r : ℚ) < p.binade * (p.units (r + 1) - p.units (r - 1)) := gap
    _ ≤ p.binade * (2 * t) := by gcongr
    _ ≤ 2 ^ 52 * (2 * t) := by gcongr
  linarith

/-- Seventeen digits are enough. -/
theorem exists_seventeen (p : Precision) {r : Nat} (pos : 0 < r) :
    ∃ d, withDigits? p r 17 = some d := by
  unfold withDigits?
  dsimp only
  generalize hk : leading (p.units r) (2 ^ p.scale) + 1 - (17 : Nat) = k
  generalize hb : (scaled (p.units r) (2 ^ p.scale) k).1 /
    (scaled (p.units r) (2 ^ p.scale) k).2 = below
  have found : roundsTo p r below k ∨ roundsTo p r (below + 1) k := by
    have unit : 0 < 2 ^ p.scale := Nat.two_pow_pos _
    have some : 0 < p.units r := by
      have := p.units_lt pos
      omega
    have lead := ten_pow_leading_le some unit
    have quotient := scaled_div (p.units r) (2 ^ p.scale) k
    have den : (0 : ℚ) < (scaled (p.units r) (2 ^ p.scale) k).2 := by
      exact_mod_cast scaled_snd_pos _ unit k
    have ht : (0 : ℚ) < 10 ^ k * 2 ^ p.scale := by positivity
    have size : (p.units r / (2 ^ p.scale : Nat) / 10 ^ k : ℚ) * (10 ^ k * 2 ^ p.scale) =
        p.units r := by
      push_cast
      field_simp
    rw [roundsTo_iff, roundsTo_iff, mul_assoc, mul_assoc]
    push_cast
    refine rounds_or_rounds pos ht ?_ ?_ ?_
    · have digits : (10 ^ 16 * 10 ^ k : ℚ) = 10 ^ leading (p.units r) (2 ^ p.scale) := by
        rw [← zpow_natCast, ← zpow_add₀ (by norm_num)]
        exact congrArg (10 ^ ·) (by omega)
      rw [← size]
      gcongr
      rwa [le_div_iff₀ (by positivity), digits]
    · rw [← size, ← quotient, ← hb]
      gcongr
      exact Nat.cast_div_le
    · rw [← size, ← quotient, ← hb]
      gcongr
      rw [div_lt_iff₀ den, mul_comm]
      exact_mod_cast Nat.lt_mul_div_succ _ (scaled_snd_pos _ unit k)
  split
  · exact ⟨_, rfl⟩
  · exact ⟨_, rfl⟩
  · exact ⟨_, rfl⟩
  · next h h' =>
    rw [h, h'] at found
    simp at found

/-! ## Trailing zeros -/

/-- The zeros at the end of a numeral are powers of ten in its number. -/
theorem ten_pow_zeros_dvd (n : Nat) :
    10 ^ ((Nat.toDigits 10 n).reverse.takeWhile (· == '0')).length ∣ n := by
  have zeros : (Nat.toDigits 10 n).reverse.takeWhile (· == '0') = List.replicate
      ((Nat.toDigits 10 n).reverse.takeWhile (· == '0')).length '0' := by
    refine List.eq_replicate_iff.mpr ⟨rfl, fun c hc => ?_⟩
    simpa using List.mem_takeWhile_imp hc
  have digits : (Nat.toDigits 10 n) =
      ((Nat.toDigits 10 n).reverse.dropWhile (· == '0')).reverse ++ List.replicate
        ((Nat.toDigits 10 n).reverse.takeWhile (· == '0')).length '0' := by
    rw [← List.reverse_inj, List.reverse_append, List.reverse_reverse, List.reverse_replicate, ← zeros,
      List.takeWhile_append_dropWhile]
  have read := Nat.ofDigitChars_ten_toDigits (n := n)
  rw [digits, Nat.ofDigitChars_append, Nat.ofDigitChars_replicate_zero] at read
  exact ⟨_, read.symm⟩

theorem value_trimmed (d : Decimal) : d.trimmed.value = d.value := by
  unfold trimmed value
  dsimp only
  obtain ⟨f, hf⟩ := ten_pow_zeros_dvd d.significand
  generalize ((Nat.toDigits 10 d.significand).reverse.takeWhile (· == '0')).length = z at hf ⊢
  rw [hf, Nat.mul_div_cancel_left _ (by positivity), zpow_add₀ (by norm_num), zpow_natCast]
  push_cast
  ring

/-! ## Shortest digits -/

/-- The shortest decimal rounds to the number. -/
theorem rounds_shortest (p : Precision) (pos : 0 < r) :
    Rounds p r ((shortest p r).value * 2 ^ p.scale) := by
  obtain ⟨d, hd⟩ := exists_seventeen p pos
  unfold shortest
  rw [value_trimmed]
  cases found : (List.range mostDigits).findSome? fun n => withDigits? p r (n + 1) with
  | none =>
    rw [List.findSome?_eq_none_iff] at found
    have := found 16 (by decide)
    rw [hd] at this
    cases this
  | some d =>
    obtain ⟨n, _, hn⟩ := List.exists_of_findSome?_eq_some found
    exact withDigits?_rounds hn

theorem shortest_value_inj (hr : 0 < r) (hs : 0 < s)
    (h : (shortest p r).value = (shortest p s).value) : r = s := by
  have second := rounds_shortest p hs
  rw [← h] at second
  exact (rounds_shortest p hr).unique second

theorem shortest_value_ne_zero (p : Precision) (pos : 0 < r) : (shortest p r).value ≠ 0 := by
  intro zero
  have low := (rounds_shortest p pos).le.1
  have some : (0 : ℚ) < p.units r := by
    have := p.units_lt pos
    exact_mod_cast (by omega : 0 < p.units r)
  rw [zero, zero_mul, mul_zero] at low
  have : (0 : ℚ) ≤ p.units (r - 1) := by positivity
  linarith

end Decimal

end PrivateRelease
