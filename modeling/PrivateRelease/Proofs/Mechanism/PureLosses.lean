import PrivateRelease.Proofs.Number.Quotients
import PrivateRelease.Proofs.Mechanism.Chaining

/-!
# Losses that are quotients

Laplace and geometric noise lose the distance over the scale. Laplace noise in single precision rounds
that quotient up, and no number of the precision is between the two. Geometric noise rounds a distance
to the nearest double and then the quotient to the nearest one, so it may lose less than the quotient.
-/

namespace PrivateRelease

open Precision

/-! ## Distances and scales -/

namespace Distance

theorem isUsable_iff {x : Binary .double} : isUsable x ↔ x.isFinite ∧ 0 ≤ x.toRat := by
  rw [isUsable, Bool.and_eq_true, Bool.not_eq_true']
  refine and_congr_right fun finite => ?_
  rw [← not_lt, ← Binary.lt_zero_iff finite, Bool.not_eq_true]

/-- A number is usable if its double is. -/
theorem isUsable_convert_iff {p : Precision} {x : Binary p} :
    isUsable x.convert ↔ x.isFinite ∧ 0 ≤ x.toRat := by
  rw [isUsable_iff]
  exact Binary.convert_double_iff (P := (0 ≤ ·))

end Distance

namespace Noise

theorem isScale_iff {x : Binary .double} : isScale x ↔ x.isFinite ∧ 0 < x.toRat := by
  rw [isScale, Bool.and_eq_true]
  exact and_congr_right fun finite => Binary.zero_lt_iff finite

/-- A number is a scale if its double is. -/
theorem isScale_convert_iff {p : Precision} {x : Binary p} :
    isScale x.convert ↔ x.isFinite ∧ 0 < x.toRat := by
  rw [isScale_iff]
  exact Binary.convert_double_iff (P := (0 < ·))

end Noise

namespace Measurement

/-! ## Formulas -/

/-- The map of a formula in the distance. -/
theorem map_of_formula {m : Measurement} {q : Numeric} {f : Binary .double → Value}
    (metric : m.inputMetric.distance = q) (formula : ∀ d, m.privacy d = do return f (← d.toDouble))
    {x : q.Carrier} (usable : Distance.isUsable (Numeric.toDouble x)) :
    m.map (.numeric q x) = .ok (f (Numeric.toDouble x)) := by
  have typed : (Value.numeric q x).type = m.inputMetric.distanceType := by
    rw [Metric.distanceType, metric]
    rfl
  have valid : Distance.validate (.numeric q x) = .ok () :=
    Distance.validate_numeric_iff.mpr usable
  rw [map_of_type typed, boundAt, valid, ok_bind, formula]
  rfl

section Kernels

variable [Elementary] {p : Precision} {scale : Binary p} {m : Measurement}

theorem map_laplace (h : laplace p scale = .ok m) {x : Binary p}
    (usable : Distance.isUsable x.convert) :
    m.map (.float p x) = .ok (.upward p (x.convert / scale.convert)) := by
  obtain ⟨_, rfl⟩ := laplace_eq_ok h
  exact map_of_formula (q := .float p) (f := fun d => .upward p (d / scale.convert)) rfl
    (fun _ => rfl) usable

theorem map_geometric {k : IntegerType} {scale : Binary .double} (h : geometric k scale = .ok m)
    {d : Bounded k} (usable : Distance.isUsable (Binary.ofInt d.val)) :
    m.map (.integer k d) = .ok (.float .double (Binary.ofInt d.val / scale)) := by
  obtain ⟨_, rfl⟩ := geometric_eq_ok h
  exact map_of_formula (q := .integer k) (f := fun x => .float .double (x / scale)) rfl
    (fun _ => rfl) usable

end Kernels

variable [Elementary]

/-! ## Laplace noise in single precision -/

/-- The loss is the least number of the precision, the infinity among them, that is not below the
distance over the scale. -/
theorem laplace_loss_isLeast {scale d : Binary .single} (hs : scale.isFinite)
    (pos : 0 < scale.toRat) (hd : d.isFinite) (nonneg : 0 ≤ d.toRat) :
    ∃ m y u, laplace .single scale = .ok m ∧ m.map (.float .single d) = .ok (.float .single y) ∧
      y.value? = some u ∧ IsLeast {w : WithBot (WithTop ℚ) |
        ((d.toRat / scale.toRat : ℚ) : WithTop ℚ) ≤ w ∧
          ∃ z : Binary .single, z.value? = some w} u := by
  obtain ⟨m, made⟩ := exists_laplace (Noise.isScale_convert_iff.mpr ⟨hs, pos⟩)
  obtain ⟨u, value, least⟩ := Binary.isLeast_singleUp_div hd hs nonneg pos
  have mapped := map_laplace made (Distance.isUsable_convert_iff.mpr ⟨hd, nonneg⟩)
  exact ⟨m, _, u, made, mapped, value, least⟩

omit [Elementary] in
/-- The least distance over the largest scale is far below half of the least positive number, which
is the loss. -/
theorem laplace_loss_isLeast_tiny :
    letI := Elementary.machine
    letI least : Binary .single := .number false 1 (by decide)
    letI most : Binary .single := .number false 0x7f7fffff (by decide)
    ∃ m u, laplace .single most = .ok m ∧
      m.map (.float .single least) = .ok (.float .single least) ∧ least.value? = some u ∧
      IsLeast {w : WithBot (WithTop ℚ) | ((least.toRat / most.toRat : ℚ) : WithTop ℚ) ≤ w ∧
        ∃ z : Binary .single, z.value? = some w} u := by
  let _ := Elementary.machine
  let least : Binary .single := .number false 1 (by decide)
  let most : Binary .single := .number false 0x7f7fffff (by decide)
  have scale : most.isFinite ∧ 0 < most.toRat := ⟨by decide, by decide +kernel⟩
  have distance : least.isFinite ∧ 0 ≤ least.toRat := ⟨by decide, by decide +kernel⟩
  obtain ⟨m, y, u, made, mapped, value, isLeast⟩ :=
    laplace_loss_isLeast scale.1 scale.2 distance.1 distance.2
  have loss := map_laplace made (x := least) (by decide +kernel)
  have rounded : Binary.singleUp (least.convert / most.convert) = least := by decide +kernel
  rw [mapped, Value.upward, Binary.roundUp, rounded] at loss
  cases loss
  exact ⟨m, u, made, mapped, value, isLeast⟩

/-! ## Geometric noise -/

/-- A loss near the distance `n` over the scale: the distance is rounded to the nearest double and the
quotient once more, so the loss is short of the exact one by two roundings at most. -/
structure NearQuotient (n : Int) (scale l : Binary .double) : Prop where
  side : l.OnSide false
  nearest : l.Nearest ((Binary.ofInt n : Binary .double).toRat / scale.toRat)
  whole : n < 2 ^ 53 → (Binary.ofInt n : Binary .double).toRat = n
  distance : |(Binary.ofInt n : Binary .double).toRat - n| ≤
    double.roundoff * (Binary.ofInt n : Binary .double).toRat
  atMost : l.isFinite →
    n / scale.toRat ≤ (1 + double.roundoff) * ((1 + double.roundoff) * l.toRat + double.tiny)

omit [Elementary] in
theorem nearQuotient_div {n : Nat} {scale : Binary .double} (word : n < 2 ^ 64)
    (hs : scale.isFinite) (pos : 0 < scale.toRat) :
    NearQuotient n scale (Binary.ofInt n / scale) := by
  have finite : (Binary.ofInt n : Binary .double).isFinite := Binary.isFinite_ofNat word
  have nonneg : 0 ≤ (Binary.ofInt n : Binary .double).toRat :=
    Binary.toRat_nonneg (Binary.onSide_ofInt (Int.natCast_nonneg n))
  have quotient := div_nonneg nonneg pos.le
  have nearest := Binary.nearest_div finite hs (Binary.isZero_eq_false hs pos)
  have error := Binary.ofInt_error finite
  rw [abs_of_nonneg nonneg] at error
  refine { nearest, distance := error, side := Binary.zero_le_iff.mp (nearest.zero_le quotient),
           whole := fun small => Binary.toRat_ofNat (by exact_mod_cast small),
           atMost := fun hl => ?_ }
  have distance := (abs_le.mp error).1
  calc (n : Int) / scale.toRat
      ≤ (1 + double.roundoff) * (Binary.ofInt n : Binary .double).toRat / scale.toRat := by
        gcongr
        linarith
    _ = (1 + double.roundoff) * ((Binary.ofInt n : Binary .double).toRat / scale.toRat) :=
        mul_div_assoc _ _ _
    _ ≤ _ := mul_le_mul_of_nonneg_left (nearest.value_le quotient hl) double.one_add_roundoff_nonneg

/-- The loss of geometric noise is the distance over the scale but for two roundings. -/
theorem geometric_loss_near {scale : Binary .double} (hs : scale.isFinite) (pos : 0 < scale.toRat)
    (k : IntegerType) (d : Bounded k) (nonneg : 0 ≤ d.val) :
    ∃ m l, geometric k scale = .ok m ∧ m.map (.integer k d) = .ok (.float .double l) ∧
      NearQuotient d.val scale l := by
  obtain ⟨m, made⟩ := exists_geometric k (Noise.isScale_iff.mpr ⟨hs, pos⟩)
  obtain ⟨n, hn⟩ := Int.eq_ofNat_of_zero_le nonneg
  have word : n < 2 ^ 64 := by
    have most : k.greatest < 2 ^ 64 := by cases k <;> decide
    have := d.le_greatest
    omega
  have usable : Distance.isUsable (Binary.ofInt d.val) := Distance.isUsable_iff.mpr
    ⟨hn ▸ Binary.isFinite_ofNat word, Binary.toRat_nonneg (Binary.onSide_ofInt nonneg)⟩
  exact ⟨m, _, made, map_geometric made usable, hn ▸ nearQuotient_div word hs pos⟩

omit [Elementary] in
/-- One at the scale three is lost as a double below a third. -/
theorem geometric_loss_near_third :
    letI := Elementary.machine
    ∃ m l, geometric .i32 3 = .ok m ∧
      m.map (.integer .i32 ⟨1, by decide, by decide⟩) = .ok (.float .double l) ∧
      NearQuotient 1 3 l := by
  let _ := Elementary.machine
  have scale : (3 : Binary .double).isFinite ∧ 0 < (3 : Binary .double).toRat := by decide +kernel
  exact geometric_loss_near scale.1 scale.2 .i32 ⟨1, by decide, by decide⟩ (by decide)

omit [Elementary] in
/-- The loss is below the exact quotient where the quotient is rounded down, and by a whole unit where
the distance is. -/
theorem geometric_understates :
    letI := Elementary.machine
    letI one : Bounded .i32 := ⟨1, by decide, by decide⟩
    letI odd : Bounded .u64 := ⟨2 ^ 53 + 1, by decide, by decide⟩
    (∃ m l, geometric .i32 3 = .ok m ∧ m.map (.integer .i32 one) = .ok (.float .double l) ∧
      l.isFinite ∧ l.toRat < one.val / (3 : Binary .double).toRat) ∧
    ∃ m l, geometric .u64 1 = .ok m ∧ m.map (.integer .u64 odd) = .ok (.float .double l) ∧
      l.isFinite ∧ l.toRat + 1 = odd.val / (1 : Binary .double).toRat := by
  let _ := Elementary.machine
  have scales : Noise.isScale 3 ∧ Noise.isScale 1 := by decide +kernel
  obtain ⟨m, made⟩ := exists_geometric .i32 scales.1
  obtain ⟨m', made'⟩ := exists_geometric .u64 scales.2
  exact ⟨⟨m, _, made, map_geometric made (by decide +kernel), by decide +kernel, by decide +kernel⟩,
    m', _, made', map_geometric made' (by decide +kernel), by decide +kernel, by decide +kernel⟩

end Measurement

end PrivateRelease
