import PrivateRelease.Proofs.Host.Curves
import PrivateRelease.Proofs.Host.Releases

/-!
# The limits of distances

A distance is finite and not below zero. What is not is refused by every operation that takes a
distance: by the host where distances count, by the marshaller where the type has no such number, and
by the library otherwise. The library sees the marshalled number only. A negative double that is too
small for single precision is a zero there, and passes for one.
-/

namespace PrivateRelease

theorem Metric.distance_of_type {m : Metric} {p : Precision} (h : m.distanceType = .float p) :
    m.distance = .float p := by
  simpa [distanceType, Descriptor.float, Descriptor.numeric] using h

namespace Mechanism

/-- The map is asked at usable distances only. -/
theorem validate_of_map {m : Mechanism} {o x : Value} (h : m.map o = .ok x) :
    Distance.validate o = .ok () := by
  cases m <;>
  · obtain ⟨_, _, bound⟩ := bind_eq_ok_iff.mp h
    obtain ⟨_, valid, _⟩ := bind_eq_ok_iff.mp bound
    exact valid

theorem map_of_check {m : Mechanism} {o o' : Value} {b : Bool} (h : m.check o o' = .ok b) :
    ∃ x, m.map o = .ok x := by
  cases m <;>
  · obtain ⟨x, mapped, _⟩ := bind_eq_ok_iff.mp h
    exact ⟨x, mapped⟩

end Mechanism

namespace Host

namespace Value

/-- A number that is no distance: below zero, infinite or a NaN. -/
inductive OutOfRange : Value → Prop
  | int {n : Bounded .i64} : n.val < 0 → OutOfRange (.int n)
  | float {x : Binary .double} : x.isFinite = false ∨ x.lt 0 → OutOfRange (.float x)

/-- A negative double within half of the smallest positive number of single precision, where that is
the type of distances. -/
def Vanishes (distance : Descriptor) (d : Value) : Prop :=
  distance = .float .single ∧ ∃ x : Binary .double, d = .float x ∧ x.isFinite ∧ x.lt 0 ∧
    |x.toRat| ≤ Precision.single.tiny

/-- No negative double is that small for doubles. -/
theorem not_tiny_of_lt_zero {x : Binary .double} (finite : x.isFinite) (h : x.lt 0) :
    ¬|x.toRat| ≤ Precision.double.tiny := by
  intro small
  have zero := (Binary.isZero_convert_iff (q := .double) finite).mpr small
  rw [Binary.convert_self, Binary.isZero_iff finite] at zero
  exact ((Binary.lt_zero_iff finite).mp h).ne zero

theorem not_isUsable_iff {x : Binary .double} :
    ¬Distance.isUsable x ↔ x.isFinite = false ∨ x.lt 0 := by
  simp only [Distance.isUsable, Bool.and_eq_true, Bool.not_eq_true', not_and_or,
    Bool.not_eq_true, Bool.not_eq_false]

/-- Rounding keeps a number on its side of zero, and away from it unless it is too small. -/
theorem not_isUsable_narrowed {p : Precision} {x : Binary .double}
    (h : x.isFinite = false ∨ x.lt 0)
    (some : x.isFinite → x.lt 0 → ¬|x.toRat| ≤ p.tiny) :
    ¬Distance.isUsable (x.convert : Binary p).convert := by
  rw [Distance.isUsable_convert_iff]
  rintro ⟨narrow, nonneg⟩
  have finite := Binary.isFinite_convert narrow
  have below : x.lt 0 := h.resolve_left (by simp [finite])
  have order : x.le (.zero false) := by
    refine Binary.le_of_toRat finite rfl ?_
    rw [Binary.toRat_zero]
    exact ((Binary.lt_zero_iff finite).mp below).le
  have nonpos := Binary.le_convert (q := p) order
  rw [Binary.convert_zero] at nonpos
  replace nonpos := Binary.toRat_le nonpos narrow (Binary.isFinite_zero false)
  rw [Binary.toRat_zero] at nonpos
  have zero := (Binary.isZero_iff narrow).mpr (le_antisymm nonpos nonneg)
  exact some finite below ((Binary.isZero_convert_iff finite).mp zero)

/-- A negative whole number is at most minus one as a double. -/
theorem toRat_ofInt_le {n : Int} (h : n < 0) (finite : (Binary.ofInt n : Binary .double).isFinite) :
    (Binary.ofInt n : Binary .double).toRat ≤ -1 := by
  have unit : (Binary.ofInt (-1) : Binary .double).isFinite ∧
      (Binary.ofInt (-1) : Binary .double).toRat = -1 := by decide +kernel
  exact unit.2 ▸ Binary.toRat_le (Binary.le_ofInt (by omega)) finite unit.1

theorem not_isUsable_ofInt {n : Int} (h : n < 0) : ¬Distance.isUsable (Binary.ofInt n) := by
  rw [Distance.isUsable_iff]
  rintro ⟨finite, nonneg⟩
  linarith [toRat_ofInt_le h finite]

/-- What is out of range is marshalled to nothing that the library takes for a distance. -/
theorem validate_ne_ok {q : Numeric} {d : Value} (h : d.OutOfRange)
    (some : ¬d.Vanishes (.numeric q)) {o : PrivateRelease.Value}
    (ho : d.toNative (.numeric q) = .ok o) : Distance.validate o ≠ .ok () := by
  obtain ⟨x, hx, rfl⟩ := toNative_primitive_eq_ok_iff.mp ho
  intro valid
  replace valid : Distance.isUsable (Numeric.toDouble x) := Distance.validate_numeric_iff.mp valid
  cases q with
  | integer k =>
    obtain ⟨n, rfl, value⟩ := toNumeric_integer_eq_ok_iff.mp hx
    cases h with
    | int below => exact not_isUsable_ofInt (value ▸ below) valid
  | float p =>
    obtain ⟨y, hy, rfl⟩ := toScalar_float_eq_ok_iff.mp hx
    cases h with
    | @int n below =>
      cases hy
      refine not_isUsable_narrowed (not_isUsable_iff.mp (not_isUsable_ofInt below))
        (fun finite _ small => ?_) valid
      have size := neg_le_abs (Binary.ofInt n.val : Binary .double).toRat
      have half : p.tiny < 1 := by cases p <;> decide +kernel
      linarith [toRat_ofInt_le below finite]
    | @float y outside =>
      cases hy
      refine not_isUsable_narrowed outside (fun finite below small => ?_) valid
      cases p with
      | single => exact some ⟨rfl, y, rfl, finite, below, small⟩
      | double => exact not_tiny_of_lt_zero finite below small

/-- A number that vanishes is marshalled as a negative zero is. -/
theorem toNative_of_vanishes {distance : Descriptor} {d : Value} (h : d.Vanishes distance) :
    d.toNative distance = (float (.zero true)).toNative distance := by
  obtain ⟨rfl, x, rfl, finite, below, small⟩ := h
  have narrowed : (x.convert : Binary .single) = .zero true := by
    have zero := (Binary.isZero_convert_iff (q := .single) finite).mpr small
    obtain ⟨r, bound, _, rfl⟩ := Binary.exists_of_lt_zero below
    rw [Binary.convert_number] at zero ⊢
    have rank : Precision.double.convertedRank .single r = 0 := by simpa [Binary.isZero] using zero
    simp only [rank, Binary.zero]
  show Except.ok (PrivateRelease.Value.float .single (x.convert : Binary .single)) =
    .ok (.float .single (Binary.convert (.zero true : Binary .double)))
  rw [narrowed, Binary.convert_zero]

end Value

/-- Every operation that takes a distance fails at this one. -/
structure AnyEntity.Refuses [Elementary] (e : AnyEntity) (d : Value) : Prop where
  map : ∀ l, ∃ f, (e.map d l).1 = .error f
  check : ∀ bound l, ∃ f, (e.check d bound l).1 = .error f
  mapCurve : ∀ m l, e = .measurement m → ∃ f, (m.mapCurve d l).1 = .error f

/-- No operation tells one distance from the other. -/
structure AnyEntity.Confuses [Elementary] (e : AnyEntity) (d d' : Value) : Prop where
  map : ∀ l, (e.map d l).1 = (e.map d' l).1
  check : ∀ bound l, (e.check d bound l).1 = (e.check d' bound l).1
  mapCurve : ∀ m l, e = .measurement m → (m.mapCurve d l).1 = (m.mapCurve d' l).1

variable [Elementary]

namespace Entity.Represents

variable {r : Role} {e : Entity r} {m : Mechanism} {d : Value}

section Unusable

variable (unusable : ∀ o, d.toNative m.inputMetric.distanceType = .ok o →
  Distance.validate o ≠ .ok ())

include unusable

theorem map_ne_ok (h : e.Represents m) (w : Value) (l : Boundary.Ledger) :
    (e.map d l).1 ≠ .ok w := by
  intro hw
  obtain ⟨_, o, x, ho, hx, _⟩ := (h.map_eq_ok_iff d w l).mp hw
  exact unusable o ho (Mechanism.validate_of_map hx)

theorem check_ne_ok (h : e.Represents m) (bound : Value) (b : Bool) (l : Boundary.Ledger) :
    (e.check d bound l).1 ≠ .ok b := by
  intro hb
  obtain ⟨_, o, _, ho, _, hb⟩ := (h.check_eq_ok_iff d bound b l).mp hb
  obtain ⟨_, hx⟩ := Mechanism.map_of_check hb
  exact unusable o ho (Mechanism.validate_of_map hx)

theorem mapCurve_ne_ok {e : Entity .measurement} (h : e.Represents m) (c : Curve)
    (l : Boundary.Ledger) : (e.mapCurve d l).1 ≠ .ok c := by
  intro hc
  cases hm : m.hasCurves with
  | false => cases (h.mapCurve_refused hm d l).symm.trans hc
  | true =>
    rw [h.mapCurve_eq hm] at hc
    obtain ⟨_, _, hc⟩ := bind_eq_ok_iff.mp hc
    obtain ⟨o, ho, hc⟩ := bind_eq_ok_iff.mp hc
    obtain ⟨x, hx, _⟩ := bind_eq_ok_iff.mp hc
    exact unusable o ho (Mechanism.validate_of_map (mapError_eq_ok_iff.mp hx))

end Unusable

end Entity.Represents

namespace AnyEntity

variable {e : AnyEntity} {m : Mechanism} {d d' : Value}

theorem Represents.refuses (h : e.Represents m)
    (unusable : ∀ o, d.toNative m.inputMetric.distanceType = .ok o →
      Distance.validate o ≠ .ok ()) : e.Refuses d where
  map l := exists_error fun w => by
    cases e <;> exact Entity.Represents.map_ne_ok unusable h w l
  check bound l := exists_error fun b => by
    cases e <;> exact Entity.Represents.check_ne_ok unusable h bound b l
  mapCurve f l made := exists_error fun c => by
    subst made
    exact Entity.Represents.mapCurve_ne_ok unusable h c l

theorem Represents.confuses (h : e.Represents m) (expected : m.expectDistance d = m.expectDistance d')
    (same : d.toNative m.inputMetric.distanceType = d'.toNative m.inputMetric.distanceType) :
    e.Confuses d d' where
  map l := by
    cases hm : m.hasCurves with
    | false =>
      cases e <;>
      · show (Entity.map _ d l).1 = (Entity.map _ d' l).1
        rw [Entity.Represents.map_eq_boundAt h hm, Entity.Represents.map_eq_boundAt h hm,
          Entity.Represents.boundAt_eq h, Entity.Represents.boundAt_eq h, expected, same]
    | true =>
      cases e with
      | transformation e =>
        obtain ⟨f, p, rfl, _⟩ := Entity.Represents.hasCurves_iff.mp hm
        cases Entity.Represents.role h
      | measurement e =>
        show (Entity.map _ d l).1 = (Entity.map _ d' l).1
        rw [Entity.Represents.map_refused h hm, Entity.Represents.map_refused h hm]
  check bound l := by
    cases e <;>
    · show (Entity.check _ d bound l).1 = (Entity.check _ d' bound l).1
      rw [Entity.Represents.check_eq h, Entity.Represents.check_eq h, expected, same]
  mapCurve f l made := by
    subst made
    cases hm : m.hasCurves with
    | false => rw [Entity.Represents.mapCurve_refused h hm, Entity.Represents.mapCurve_refused h hm]
    | true =>
      rw [Entity.Represents.mapCurve_eq h hm, Entity.Represents.mapCurve_eq h hm, expected, same]

end AnyEntity

/-- Every operation of a reachable entity refuses a number that is no distance, unless it is negative
and so small that single precision takes it for a negative zero. Then every operation does. -/
theorem out_of_range_refused {e : AnyEntity} (reachable : e.Reachable) :
    (∀ d, d.OutOfRange → ¬d.Vanishes e.descriptors.inputDistance → e.Refuses d) ∧
      ∀ d, d.Vanishes e.descriptors.inputDistance → e.Confuses d (.float (.zero true)) := by
  obtain ⟨m, h⟩ := reachable.exists_represents
  rw [h.descriptors]
  constructor
  · intro d outside some
    exact h.refuses fun o ho => Value.validate_ne_ok outside some ho
  · intro d vanishes
    have typed : m.inputMetric.distanceType = .float .single := vanishes.1
    have float := Metric.distance_of_type typed
    refine h.confuses ?_ (Value.toNative_of_vanishes vanishes)
    rw [Mechanism.expectDistance_of_float float, Mechanism.expectDistance_of_float float]

omit [Elementary] in
/-- Laplace noise of scale one in single precision, where a negative double of magnitude `2⁻²⁰⁰` is
not told from zero. -/
theorem out_of_range_refused_laplace :
    letI := Elementary.machine
    letI tiny : Binary .double := .number true (823 * Precision.double.binade) (by decide)
    ∃ e : Entity .measurement, (AnyEntity.measurement e).Reachable ∧
      (AnyEntity.measurement e).Refuses (.int ⟨-1, by decide, by decide⟩) ∧
      (AnyEntity.measurement e).Refuses (.float (.infinite false)) ∧
      (AnyEntity.measurement e).Confuses (.float tiny) (.float (.zero true)) := by
  let _ := Elementary.machine
  let tiny : Binary .double := .number true (823 * Precision.double.binade) (by decide)
  obtain ⟨e, m, reachable, h, made⟩ := AnyEntity.exists_laplace (p := .single) .one (by decide +kernel)
  obtain ⟨_, rfl⟩ := Measurement.laplace_eq_ok made
  have distance : (AnyEntity.measurement e).descriptors.inputDistance = .float .single :=
    congrArg Descriptors.inputDistance h.descriptors
  obtain ⟨refused, confused⟩ := out_of_range_refused reachable
  rw [distance] at refused confused
  refine ⟨e, reachable, refused _ (.int (by decide)) ?_, refused _ (.float (.inl (by decide))) ?_,
    confused _ ⟨rfl, tiny, rfl, by decide, by decide +kernel, by decide +kernel⟩⟩
  · rintro ⟨_, x, hx, _⟩
    cases hx
  · rintro ⟨_, x, hx, finite, _⟩
    cases hx
    cases finite

omit [Elementary] in
/-- The map of Laplace noise in single precision gives a loss at a negative distance. -/
theorem negative_distance_maps :
    letI := Elementary.machine
    letI tiny : Binary .double := .number true (823 * Precision.double.binade) (by decide)
    ∃ e : Entity .measurement, (AnyEntity.measurement e).Reachable ∧
      tiny.isFinite ∧ tiny.toRat < 0 ∧ ∀ l, ∃ w, (e.map (.float tiny) l).1 = .ok w := by
  let _ := Elementary.machine
  let tiny : Binary .double := .number true (823 * Precision.double.binade) (by decide)
  obtain ⟨e, m, reachable, h, made⟩ := AnyEntity.exists_laplace (p := .single) .one (by decide +kernel)
  have loss := lossAt_laplace (x := tiny) made (by decide +kernel)
  obtain ⟨_, rfl⟩ := Measurement.laplace_eq_ok made
  refine ⟨e, reachable, by decide, by decide +kernel, fun l => ?_⟩
  rw [h.map_eq_lossAt rfl, loss]
  exact ⟨_, rfl⟩

end Host

end PrivateRelease
