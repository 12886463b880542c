import PrivateRelease.Proofs.Host.Verdicts
import PrivateRelease.Proofs.Mechanism.PureLosses

/-!
# Noisy releases in the host

Programs that make a release of the format that is hinted, and the loss of such a release at a host
number: the number is rounded to the format and the formula of the noise is applied to its double.
-/

namespace PrivateRelease.Host

open Stop

/-- Hints of one format. -/
def Hints.format (p : Precision) : Hints := [("T", .descriptor (Descriptor.float p).toText)]

theorem Hints.resolve_format (p : Precision) (fallback : Except Failure Descriptor) :
    (Hints.format p).resolve "T" fallback = .ok (.float p) := by
  have parsed : Descriptor.parse (Descriptor.float p).toText = .ok (.float p) :=
    Descriptor.parse_toText (.primitive _)
  simp [Hints.format, Hints.resolve, TypeHint.toDescriptor, parsed, Except.mapError]

variable [Elementary] {p : Precision} {scale : Binary p}

omit [Elementary] in
/-- A scale is a number, and rounds to itself. -/
theorem toNumeric_scale (h : Noise.isScale scale.convert) :
    (Value.float scale.convert).toNumeric (.float p) = .ok scale := by
  have finite := Binary.isFinite_convert (Bool.and_eq_true_iff.mp h).1
  exact congrArg Except.ok (Binary.convert_convert (Binary.isNaN_of_isFinite finite))

/-- Where a construction with a scale denotes noise of this scale and there is such noise, a program
makes an entity for it. -/
theorem AnyEntity.exists_release {c : Value → Construction}
    {make : Binary p → Except Error Measurement} (h : Noise.isScale scale.convert)
    (denoted : (c (.float scale.convert)).denote ⟨[Features.floatingPoint]⟩ (.format p) = (do
      let x ← accept ((Value.float scale.convert).toNumeric (.float p))
      return .measurement (← core (make x))))
    (made : ∃ m, make scale = .ok m) :
    ∃ (e : Entity .measurement) (m : Measurement), (measurement e).Reachable ∧
      e.Represents (.measurement m) ∧ make scale = .ok m := by
  obtain ⟨m, made⟩ := made
  rw [toNumeric_scale h] at denoted
  have built : core (make scale) = .ok m := by
    rw [made]
    rfl
  have denoted : (Program.make ⟨⟨[Features.floatingPoint]⟩⟩ (c (.float scale.convert))
      (.format p)).denote = .ok (.measurement m) :=
    denoted.trans (bind_eq_ok_iff.mpr ⟨scale, rfl, bind_eq_ok_iff.mpr ⟨m, built, rfl⟩⟩)
  obtain ⟨e, reachable, holds⟩ := exists_measurement denoted
  exact ⟨e, m, reachable, reachable.represents holds, made⟩

theorem AnyEntity.exists_laplace (scale : Binary p) (h : Noise.isScale scale.convert) :
    ∃ (e : Entity .measurement) (m : Measurement), (measurement e).Reachable ∧
      e.Represents (.measurement m) ∧ Measurement.laplace p scale = .ok m :=
  exists_release (c := .laplace) h (by rw [Construction.denote, Hints.resolve_format]; rfl)
    (Measurement.exists_laplace h)

theorem AnyEntity.exists_gaussian (scale : Binary p) (h : Noise.isScale scale.convert) :
    ∃ (e : Entity .measurement) (m : Measurement), (measurement e).Reachable ∧
      e.Represents (.measurement m) ∧ Measurement.gaussian p scale = .ok m :=
  exists_release (c := .gaussian) h (by rw [Construction.denote, Hints.resolve_format]; rfl)
    (Measurement.exists_gaussian h)

/-! ## Losses -/

variable {m : Measurement} {x : Binary .double}

omit [Elementary] in
/-- The loss of a formula in the distance. -/
theorem lossAt_formula {f : Binary .double → PrivateRelease.Value}
    (metric : m.inputMetric.distance = .float p)
    (formula : ∀ d, m.privacy d = do return f (← d.toDouble))
    (usable : Distance.isUsable (x.convert : Binary p).convert) :
    lossAt m (.float x) = .ok (f (x.convert : Binary p).convert) := by
  have made : (Value.float x).toNative m.inputMetric.distanceType =
      .ok (.float p (x.convert : Binary p)) := by
    rw [Metric.distanceType, metric]
    rfl
  have expected : (Mechanism.measurement m).expectDistance (.float x) = .ok () :=
    Mechanism.expectDistance_of_float (m := .measurement m) metric _
  have mapped : m.map (.float p x.convert) = .ok (f (x.convert : Binary p).convert) :=
    Measurement.map_of_formula (q := .float p) metric formula usable
  rw [lossAt, expected, ok_bind, made, ok_bind, mapped]
  rfl

theorem lossAt_laplace (h : Measurement.laplace p scale = .ok m)
    (usable : Distance.isUsable (x.convert : Binary p).convert) :
    lossAt m (.float x) =
      .ok (.upward p ((x.convert : Binary p).convert / scale.convert)) := by
  obtain ⟨_, rfl⟩ := Measurement.laplace_eq_ok h
  exact lossAt_formula (f := fun d => .upward p (d / scale.convert)) rfl (fun _ => rfl) usable

theorem lossAt_gaussian (h : Measurement.gaussian p scale = .ok m)
    (usable : Distance.isUsable (x.convert : Binary p).convert) :
    letI ratio : Binary .double := (x.convert : Binary p).convert / scale.convert
    lossAt m (.float x) =
      .ok (.curve (Measurement.concentratedCurve p (ratio * ratio / 2))) := by
  obtain ⟨_, rfl⟩ := Measurement.gaussian_eq_ok h
  exact lossAt_formula (f := fun d => .curve (Measurement.concentratedCurve p
    (d / scale.convert * (d / scale.convert) / 2))) rfl (fun _ => rfl) usable

/-- A Laplace release passes the check with a bound that its loss is within. -/
theorem AnyEntity.exists_laplace_check (scale : Binary p) (h : Noise.isScale scale.convert)
    (x y : Binary .double) (usable : Distance.isUsable (x.convert : Binary p).convert)
    (within : (((x.convert : Binary p).convert / scale.convert : Binary .double).roundUp p).le
      y.convert) :
    ∃ e : Entity .measurement, (measurement e).Reachable ∧
      (measurement e).descriptors.inputDistance = .float p ∧
      ∀ l, (e.check (.float x) (.float y) l).1 = .ok true := by
  obtain ⟨e, m, reachable, represents, made⟩ := exists_laplace scale h
  have loss := lossAt_laplace made usable
  obtain ⟨_, rfl⟩ := Measurement.laplace_eq_ok made
  refine ⟨e, reachable, congrArg Descriptors.inputDistance represents.descriptors, fun l => ?_⟩
  rw [represents.check_eq_lossAt (o := .float p y.convert) rfl, loss, ok_bind]
  refine mapError_eq_ok_iff.mpr ?_
  exact (Distance.le_float _ _).trans (congrArg Except.ok within)

end PrivateRelease.Host
