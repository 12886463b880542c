import PrivateRelease.Proofs.Mechanism.PureLosses
import PrivateRelease.Proofs.Mechanism.Monotonicity

/-!
# Geometric noise

The logarithm of a draw is negative and so is the reciprocal that it is divided by, so a count of
failures is not below zero, whatever becomes of the quotient at the ends of the scales. The difference
of two counts is then within 128 bits. What is held within 128 bits and then within a type is held
within the type, and neither takes two numbers apart.
-/

namespace PrivateRelease

open Precision

namespace Elementary

/-- The logarithm of a number between zero and one is negative. -/
def LogIsNegative [Elementary] : Prop :=
  ∀ x : Binary .double, Binary.lt 0 x → x.lt 1 → (ln x).lt 0

theorem nearest_logIsNegative : letI := nearest; LogIsNegative := by
  intro x pos one
  obtain ⟨r, bound, above, rfl⟩ := Binary.exists_of_pos pos
  have stands : (Binary.number false r bound).StandsAt r := .number bound (.inl rfl)
  have below := (stands.lt_iff Binary.standsAt_one rfl Binary.isNaN_one).mp one
  have apart := toReal_mono (.inl rfl) (.inl rfl) (Nat.le_sub_one_of_lt below)
  rw [toReal_before_one] at apart
  have positive : 0 < toReal false r := by
    have units : (0 : ℝ) < double.units r := by exact_mod_cast units_pos above
    rw [toReal_eq (.inl rfl)]
    positivity
  have finite : r ≠ double.infinity := (below.trans_le (by decide)).ne
  show (extend log Binary.indefinite (.infinite false) (.number false r bound)).lt 0
  rw [extend, if_neg finite, log_eq positive]
  exact ofReal_log_neg positive apart

end Elementary

/-! ## Quotients of negative numbers -/

namespace Binary

variable {p : Precision} {x : Binary p} {r k : Nat}

/-- Of numbers on one side of zero the quotient is not below zero, if there is one. -/
theorem exists_standsAt_div_negative (h : r ≤ p.infinity) (h' : k ≤ p.infinity) (pos : 0 < r) :
    ∃ i, (number true r h / number true k h').StandsAt i := by
  have sides : number true r h / number true k h' = number false r h / number false k h' := rfl
  rw [sides]
  rcases Nat.eq_zero_or_pos k with rfl | positive
  · have zero : (number false r h / number false 0 h' : Binary p) = infinite false := by
      show div _ _ = _
      unfold div
      simp [Nat.ne_of_gt pos, Nat.ne_of_lt p.infinity_pos]
    exact ⟨_, zero ▸ standsAt_infinite⟩
  · exact ⟨_, StandsAt.div (.number h (.inl rfl)) positive h'⟩

theorem StandsAt.floorWithin (h : x.StandsAt r) {lower upper : Int} (low : lower ≤ 0)
    (high : 0 ≤ upper) : 0 ≤ x.floorWithin lower upper ∧ x.floorWithin lower upper ≤ upper := by
  cases h with
  | nan => exact ⟨le_rfl, high⟩
  | @number s r bound side =>
    rw [Binary.floorWithin]
    split
    next top =>
      rw [sign_of_infinite side top]
      exact ⟨high, le_rfl⟩
    · rw [signedUnits_eq side]
      have whole : (0 : Int) ≤ p.units r / 2 ^ p.scale :=
        Int.ediv_nonneg (Int.natCast_nonneg _) (by positivity)
      omega

/-! ## Draws -/

/-- A fraction of a power of two is exact, and between zero and one. -/
theorem rounded_between {n j : Nat} (pos : 0 < n) (small : n < 2 ^ 53)
    (exponent : 53 + j = double.scale) :
    lt 0 (rounded false (n * 2 ^ j) 1 : Binary .double) ∧
      (rounded false (n * 2 ^ j) 1 : Binary .double).lt 1 := by
  have unit := Nat.two_pow_pos j
  obtain ⟨r, _, units⟩ := exists_units (p := .double) (m := n)
    (Nat.lt_of_lt_of_le small (by decide)) j
  have one : double.units (1023 * double.binade) = 2 ^ 53 * 2 ^ j := by
    rw [← Nat.pow_add, exponent]
    decide +kernel
  have below : r < 1023 * double.binade := by
    by_contra large
    have above := units_le (p := .double) (not_lt.mp large)
    rw [units, one] at above
    exact absurd (Nat.le_of_mul_le_mul_right above unit) (not_le.mpr small)
  have above : 0 < r := by
    refine Nat.pos_of_ne_zero fun zero => ?_
    rw [zero, units_zero] at units
    exact absurd units (Nat.mul_pos pos unit).ne
  have bound : r ≤ double.infinity := below.le.trans (by decide)
  have made := rounded_units false bound Nat.one_pos
  have stands : (number false r bound).StandsAt r := .number bound (.inl rfl)
  rw [Nat.mul_one, units] at made
  rw [made, one_eq]
  exact ⟨((standsAt_zero false).lt_iff stands rfl rfl).mpr above,
    (stands.lt_iff (.number _ (.inl rfl)) rfl rfl).mpr below⟩

end Binary

theorem Draw.toDouble_between (d : Draw) : Binary.lt 0 d.toDouble ∧ d.toDouble.lt 1 := by
  have exponent : 53 + (1074 - 53) = double.scale := rfl
  have between := Binary.rounded_between d.pos d.lt_one exponent
  exact between

namespace Noise

variable [Elementary]

/-- The geometric noise of the next two draws. -/
def geometricAt (scale : Binary .double) (t : Tape) : Int :=
  geometricOf scale (t.draw t.position).toDouble (t.draw (t.position + 1)).toDouble

theorem geometric_eq {scale : Binary .double} (h : isScale scale) (t : Tape) :
    geometric scale t = .ok (geometricAt scale t, t.next.2.next.2) := by
  rw [geometric, checkScale, if_pos h]
  rfl

/-! ## Counts -/

/-- A count as a word of 128 bits. -/
def count (scale d : Binary .double) : BitVec 128 := BitVec.ofInt 128 (failures scale d)

/-- Two counts that words of 128 bits hold, and whose difference they hold. -/
structure ExactDifference (scale u v : Binary .double) : Prop where
  first : 0 ≤ failures scale u ∧ failures scale u ≤ greatestWide
  second : 0 ≤ failures scale v ∧ failures scale v ≤ greatestWide
  overflow : (count scale u).ssubOverflow (count scale v) = false
  difference : (count scale u - count scale v).toInt = geometricOf scale u v

omit [Elementary] in
theorem exists_reciprocal {scale : Binary .double} (h : isScale scale) :
    ∃ j bound, -1 / scale = .number true j bound := by
  obtain ⟨k, finite, pos, rfl⟩ := Measurement.exists_of_isScale h
  have made : -1 / Binary.number false k finite.le = .rounded true
      (double.units ((double.scale - double.fractionBits + 1) * double.binade) * 2 ^ double.scale)
      (double.units k) := by
    show Binary.div (Binary.neg 1) _ = _
    rw [Binary.one_eq, Binary.one, Binary.neg, Binary.div, if_neg (by decide),
      if_neg (Nat.ne_of_lt finite), if_neg (Nat.ne_of_gt pos)]
    rfl
  exact ⟨_, _, made⟩

theorem failures_between (negative : Elementary.LogIsNegative) {scale u : Binary .double}
    (h : isScale scale) (pos : Binary.lt 0 u) (one : u.lt 1) :
    0 ≤ failures scale u ∧ failures scale u ≤ greatestWide := by
  obtain ⟨r, bound, below, log⟩ := Binary.exists_of_lt_zero (negative u pos one)
  obtain ⟨j, bound', reciprocal⟩ := exists_reciprocal h
  obtain ⟨i, stands⟩ := Binary.exists_standsAt_div_negative bound bound' below
  rw [failures, log, reciprocal]
  exact stands.floorWithin (by decide) (by decide)

theorem exactDifference (negative : Elementary.LogIsNegative) {scale u v : Binary .double}
    (h : isScale scale) (hu : Binary.lt 0 u ∧ u.lt 1) (hv : Binary.lt 0 v ∧ v.lt 1) :
    ExactDifference scale u v := by
  have first := failures_between negative h hu.1 hu.2
  have second := failures_between negative h hv.1 hv.2
  have held : ∀ {d}, 0 ≤ failures scale d ∧ failures scale d ≤ greatestWide →
      (count scale d).toInt = failures scale d := fun within =>
    BitVec.toInt_ofInt_eq_self (by decide) (le_trans (by decide) within.1)
      (Int.lt_of_le_sub_one within.2)
  have overflow : (count scale u).ssubOverflow (count scale v) = false := by
    rw [BitVec.ssubOverflow, held first, held second]
    unfold greatestWide at first second
    simp
    omega
  refine ⟨first, second, overflow, ?_⟩
  rw [BitVec.toInt_sub_of_not_ssubOverflow (by simp [overflow]), held first, held second]
  rfl

end Noise

/-! ## Saturation -/

namespace Bounded

/-- The least and the greatest integer of a type are within 128 bits. -/
theorem clamp_clampWide (k : IntegerType) (n : Int) : clamp k (Noise.clampWide n) = clamp k n := by
  have low : Noise.leastWide ≤ k.least := by cases k <;> decide
  have high : k.greatest ≤ Noise.greatestWide := by cases k <;> decide
  have order := k.least_le_greatest
  simp only [clamp, Noise.clampWide, mk.injEq]
  omega

theorem abs_clamp_sub_le (k : IntegerType) (m n : Int) :
    |(clamp k m).val - (clamp k n).val| ≤ |m - n| := by
  have order := k.least_le_greatest
  simp only [clamp]
  rw [abs_le, abs_eq_max_neg]
  omega

end Bounded

namespace Measurement

variable [Elementary]

theorem invoke_geometric {k : IntegerType} {scale : Binary .double} {m : Measurement}
    (h : geometric k scale = .ok m) (x : Bounded k) (t : Tape) :
    m.invoke (.integer k x) t =
      .ok (.integer k (Bounded.clamp k (x.val + Noise.geometricAt scale t)), t.next.2.next.2) := by
  obtain ⟨isScale, rfl⟩ := geometric_eq_ok h
  have member : (Domain.all (.integer k)).member (.integer k x) := Domain.member_all_iff.mpr rfl
  have read : (Value.integer k x).toScalar (.numeric (.integer k)) = .ok x := by
    rw [Value.toScalar, Value.integer, Value.numeric, Value.scalar?_scalar]
  rw [invoke, checkMember, if_pos member]
  show (Sampling.ofExcept ((Value.integer k x).toScalar (.numeric (.integer k))) >>= fun x =>
    Noise.geometric scale >>= fun n => pure (Value.integer k
      (Bounded.clamp k (Noise.clampWide (Bounded.val x + n))))) t = _
  rw [read]
  show (Noise.geometric scale t >>= fun n => pure (Value.integer k
    (Bounded.clamp k (Noise.clampWide (x.val + n.1))), n.2)) = _
  rw [Noise.geometric_eq isScale, ← Bounded.clamp_clampWide]
  rfl

/-- Geometric noise neither overflows nor wraps: at draws from the open unit interval the counts and
their difference are exact, and a release is the sum of the number and the noise, held within the
type. So with the same draws releases are no further apart than the numbers are. -/
theorem geometric_exact (negative : Elementary.LogIsNegative) {scale : Binary .double}
    (hs : scale.isFinite) (pos : 0 < scale.toRat) (k : IntegerType) :
    (∀ u v : Binary .double, Binary.lt 0 u ∧ u.lt 1 → Binary.lt 0 v ∧ v.lt 1 →
      Noise.ExactDifference scale u v) ∧
    ∃ m, geometric k scale = .ok m ∧ ∀ t : Tape,
      Noise.ExactDifference scale (t.draw t.position).toDouble
        (t.draw (t.position + 1)).toDouble ∧
      ∀ x : Bounded k, ∃ y : Bounded k,
        m.invoke (.integer k x) t = .ok (.integer k y, t.next.2.next.2) ∧
        y.val = max k.least (min k.greatest (x.val + Noise.geometricAt scale t)) ∧
        ∀ x' : Bounded k, ∃ y' : Bounded k,
          m.invoke (.integer k x') t = .ok (.integer k y', t.next.2.next.2) ∧
          |y.val - y'.val| ≤ |x.val - x'.val| := by
  have isScale := Noise.isScale_iff.mpr ⟨hs, pos⟩
  obtain ⟨m, made⟩ := exists_geometric k isScale
  have exact := fun u v hu hv => Noise.exactDifference (u := u) (v := v) negative isScale hu hv
  refine ⟨exact, m, made, fun t => ⟨exact _ _ (Draw.toDouble_between _) (Draw.toDouble_between _),
    fun x => ⟨_, invoke_geometric made x t, rfl, fun x' => ⟨_, invoke_geometric made x' t, ?_⟩⟩⟩⟩
  have close := Bounded.abs_clamp_sub_le k (x.val + Noise.geometricAt scale t)
    (x'.val + Noise.geometricAt scale t)
  rwa [add_sub_add_right_eq_sub] at close

omit [Elementary] in
/-- The reciprocal of the least scale is infinite. -/
theorem geometric_exact_least :
    letI := Elementary.nearest
    letI least : Binary .double := .number false 1 (by decide)
    Binary.infinite true = -1 / least ∧ (∀ t : Tape, Noise.ExactDifference least
      (t.draw t.position).toDouble (t.draw (t.position + 1)).toDouble) ∧
    ∃ m, geometric .i32 least = .ok m ∧ ∀ (t : Tape) (x : Bounded .i32), ∃ y : Bounded .i32,
      m.invoke (.integer .i32 x) t = .ok (.integer .i32 y, t.next.2.next.2) ∧
      y.val = max IntegerType.i32.least
        (min IntegerType.i32.greatest (x.val + Noise.geometricAt least t)) := by
  let _ := Elementary.nearest
  let least : Binary .double := .number false 1 (by decide)
  have scale : least.isFinite ∧ 0 < least.toRat := ⟨by decide, by decide +kernel⟩
  obtain ⟨-, m, made, exact⟩ :=
    geometric_exact Elementary.nearest_logIsNegative scale.1 scale.2 .i32
  refine ⟨by decide +kernel, fun t => (exact t).1, m, made, fun t x => ?_⟩
  obtain ⟨y, run, value, -⟩ := (exact t).2 x
  exact ⟨y, run, value⟩

end Measurement

end PrivateRelease
