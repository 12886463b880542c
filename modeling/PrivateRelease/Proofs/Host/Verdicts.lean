import PrivateRelease.Proofs.Host.Boundaries
import PrivateRelease.Proofs.Host.RoundTrip
import PrivateRelease.Proofs.Mechanism.Signs

/-!
# Verdicts

The map and the check of a measurement take different entry points, and the loss that the map gives is
widened to a host value and narrowed again when it is handed to the check. Still the check compares
that very loss: its verdict is that of the two host values at the precision of the measure, and where
the map fails the check fails alike.
-/

namespace PrivateRelease

namespace Binary

variable {p : Precision} {x y z : Binary p}

theorem Alike.position_eq (h : x.Alike y) : x.position = y.position := by
  cases x <;> cases y
  · rfl
  · cases h
  · cases h
  · obtain ⟨rfl, rfl⟩ := h
    rfl

theorem Alike.le_eq (h : x.Alike y) : x.le z = y.le z := by
  rw [le, le, h.position_eq]

/-- A float that was widened for the host is narrowed to the same number. -/
theorem alike_convert_double (x : Binary p) :
    x.Alike ((x.convert : Binary .double).convert : Binary p) := by
  cases p with
  | single => exact alike_narrow_wide x
  | double =>
    rw [convert_self, convert_self]
    exact .refl x

end Binary

namespace Distance

variable {p : Precision}

theorem le_pair (e d e' d' : Binary p) :
    le (.tuple [.float p e, .float p d]) (.tuple [.float p e', .float p d']) =
      .ok (e.le e' && d.le d') := by
  simp only [le, leAll, List.length_cons, List.length_nil, if_true, le_float, ok_bind]
  cases e.le e' <;> cases d.le d' <;> rfl

end Distance

namespace Host

namespace Value

/-- Whether a number is at most another, both made into floats of precision `p`. -/
def atMost (p : Precision) (v w : Value) : Bool :=
  match v.float?, w.float? with
  | some x, some y => (x.convert : Binary p).le y.convert
  | _, _ => false

/-- Whether a loss is within a bound: a number at most a number, or both parts of a pair. -/
def within (p : Precision) : Value → Value → Bool
  | tuple [e, d], tuple [e', d'] => e.atMost p e' && d.atMost p d'
  | l, bound => l.atMost p bound

variable {p : Precision} {v w : Value}

theorem toScalar_float_eq_ok_iff {x : Binary p} :
    v.toScalar (.numeric (.float p)) = .ok x ↔ ∃ y, v.float? = some y ∧ x = y.convert := by
  show (v.demand (.float p) v.float? >>= fun y => pure y.convert) = Except.ok x ↔ _
  cases v.float? with
  | none => exact ⟨nofun, nofun⟩
  | some y =>
    refine ⟨fun h => ⟨y, rfl, (Except.ok.inj h).symm⟩, ?_⟩
    rintro ⟨_, hz, rfl⟩
    cases hz
    rfl

/-- A loss that the host has widened is compared as the loss itself. -/
theorem atMost_eq_le {x y : Binary p} (h : v.toScalar (.numeric (.float p)) = .ok y) :
    (float x.convert).atMost p v = x.le y := by
  obtain ⟨z, hz, rfl⟩ := toScalar_float_eq_ok_iff.mp h
  rw [atMost, hz]
  exact (Binary.alike_convert_double x).le_eq.symm

theorem toNative_float_eq_ok_iff {o : PrivateRelease.Value} :
    v.toNative (.float p) = .ok o ↔
      ∃ x, v.toScalar (.numeric (.float p)) = .ok x ∧ o = .float p x :=
  toNative_primitive_eq_ok_iff

theorem toNative_pair_eq_ok_iff {o : PrivateRelease.Value} :
    v.toNative (.pair (.float p)) = .ok o ↔ ∃ e d x y, v = tuple [e, d] ∧
      e.toScalar (.numeric (.float p)) = .ok x ∧ d.toScalar (.numeric (.float p)) = .ok y ∧
      o = .tuple [.float p x, .float p y] := by
  rw [Descriptor.pair, toNative_tuple_eq_ok_iff]
  constructor
  · rintro ⟨vs, os, rfl, hl, hos, rfl⟩
    obtain ⟨e, d, rfl⟩ := List.length_eq_two.mp hl.symm
    obtain ⟨_, _, he, rest, rfl⟩ := toNatives_cons_eq_ok_iff.mp hos
    obtain ⟨_, _, hd, none, rfl⟩ := toNatives_cons_eq_ok_iff.mp rest
    cases none
    obtain ⟨x, hx, rfl⟩ := toNative_float_eq_ok_iff.mp he
    obtain ⟨y, hy, rfl⟩ := toNative_float_eq_ok_iff.mp hd
    exact ⟨e, d, x, y, rfl, hx, hy, rfl⟩
  · rintro ⟨e, d, x, y, rfl, hx, hy, rfl⟩
    refine ⟨[e, d], _, rfl, rfl, toNatives_cons_eq_ok_iff.mpr ?_, rfl⟩
    refine ⟨_, _, toNative_float_eq_ok_iff.mpr ⟨x, hx, rfl⟩, ?_, rfl⟩
    exact toNatives_cons_eq_ok_iff.mpr
      ⟨_, _, toNative_float_eq_ok_iff.mpr ⟨y, hy, rfl⟩, rfl, rfl⟩

end Value

/-! ## Losses that are no curves -/

section Losses

variable {measure : Measure} {x o : PrivateRelease.Value} {bound : Value}

/-- The host reads every loss that is no curve. -/
theorem exists_ofNative_loss (loss : measure.IsLoss x)
    (single : ∀ p, measure ≠ .smoothedMaxDivergence p) : ∃ w, Value.ofNative x = .ok w := by
  cases loss with
  | number x => exact ⟨_, rfl⟩
  | pair e d => exact ⟨_, rfl⟩
  | curve => exact absurd rfl (single _)

/-- Comparing native values is comparing the host values read from one and made into the other. -/
theorem le_eq_within {w : Value} (loss : measure.IsLoss x) (hw : Value.ofNative x = .ok w)
    (hb : bound.toNative measure.boundType = .ok o) :
    Distance.le x o = .ok (w.within measure.precision bound) := by
  cases loss with
  | number x =>
    cases hw
    obtain ⟨y, hy, rfl⟩ := Value.toNative_float_eq_ok_iff.mp hb
    rw [Distance.le_float, ← Value.atMost_eq_le hy]
    rfl
  | pair e d =>
    cases hw
    obtain ⟨e', d', x, y, rfl, hx, hy, rfl⟩ := Value.toNative_pair_eq_ok_iff.mp hb
    rw [Distance.le_pair, ← Value.atMost_eq_le hx, ← Value.atMost_eq_le hy]
    rfl
  | curve => cases hw

/-- A loss that was read fits the type of bounds. -/
theorem fits_loss {w : Value} (loss : measure.IsLoss x) (hw : Value.ofNative x = .ok w) :
    w.Fits measure.boundType := by
  cases loss with
  | number x =>
    cases hw
    exact .float _ _
  | pair e d =>
    cases hw
    exact .tuple (.cons (.float _ _) (.cons (.float _ _) .nil))
  | curve => cases hw

/-- A loss without NaNs is within itself. -/
theorem within_self {w : Value} (proper : measure.IsProper x) (hw : Value.ofNative x = .ok w) :
    w.within measure.precision w := by
  have self : ∀ {p : Precision} {y : Binary p}, y.OnSide false →
      (Value.float y.convert).atMost p (Value.float y.convert) := fun hy =>
    (Binary.Rises.refl hy.convert.convert).le
  cases proper with
  | number hx =>
    cases hw
    exact self hx
  | pair he hd =>
    cases hw
    exact Bool.and_eq_true_iff.mpr ⟨self he, self hd⟩
  | curve => cases hw

end Losses

/-! ## The map and the check -/

section Checks

variable [Elementary] {m : Measurement} {e : Entity .measurement}

/-- The native loss at a host distance. -/
def lossAt (m : Measurement) (d : Value) : Except Failure PrivateRelease.Value := do
  (Mechanism.measurement m).expectDistance d
  let o ← d.toNative m.inputMetric.distanceType
  (m.map o).mapError .ofCore

theorem isLoss_of_lossAt (h : m.Built) {d : Value} {x : PrivateRelease.Value}
    (hx : lossAt m d = .ok x) : m.outputMeasure.IsLoss x := by
  obtain ⟨_, _, hx⟩ := bind_eq_ok_iff.mp hx
  obtain ⟨o, ho, hx⟩ := bind_eq_ok_iff.mp hx
  have typed := h.mapsDistances.map (Value.toNative_eq_ok ho).1
  rwa [mapError_eq_ok_iff.mp hx] at typed

theorem isProper_of_lossAt (signed : Elementary.IsSigned) (h : m.Built) {d : Value}
    {x : PrivateRelease.Value} (hx : lossAt m d = .ok x) : m.outputMeasure.IsProper x := by
  obtain ⟨_, _, hx⟩ := bind_eq_ok_iff.mp hx
  obtain ⟨o, ho, hx⟩ := bind_eq_ok_iff.mp hx
  exact h.losesProperly signed o x (Measurement.map_eq_ok (mapError_eq_ok_iff.mp hx)).2

omit [Elementary] in
theorem noCurve_of_hasCurves (single : (Mechanism.measurement m).hasCurves = false)
    (p : Precision) : m.outputMeasure ≠ .smoothedMaxDivergence p := by
  intro hp
  have curves := Entity.Represents.hasCurves_iff.mpr ⟨m, p, rfl, hp⟩
  rw [single] at curves
  cases curves

theorem Entity.Represents.map_eq_lossAt (h : e.Represents (.measurement m))
    (single : (Mechanism.measurement m).hasCurves = false) (d : Value) (l : Boundary.Ledger) :
    (e.map d l).1 = lossAt m d >>= Value.ofNative := by
  rw [h.map_eq_boundAt single, h.boundAt_eq, lossAt, bind_assoc, bind_assoc]
  rfl

theorem Entity.Represents.check_eq_lossAt (h : e.Represents (.measurement m)) {bound : Value}
    {o : PrivateRelease.Value} (hb : bound.toNative m.outputMeasure.boundType = .ok o) (d : Value)
    (l : Boundary.Ledger) : (e.check d bound l).1 =
      lossAt m d >>= fun x => (Distance.le x o).mapError .ofCore := by
  have bounds : (Mechanism.measurement m).boundType = m.outputMeasure.boundType := rfl
  rw [h.check_eq, bounds, hb, lossAt, bind_assoc, bind_assoc]
  simp only [ok_bind, Mechanism.check, Measurement.check, mapError_bind]
  rfl

/-- The check is the map and then the comparison of the two host values. -/
theorem Entity.Represents.check_eq_map (h : e.Represents (.measurement m))
    (single : (Mechanism.measurement m).hasCurves = false) {bound : Value}
    (fits : bound.Fits m.outputMeasure.boundType) (d : Value) (l l' : Boundary.Ledger) :
    (e.check d bound l').1 =
      (e.map d l).1 >>= fun w => .ok (w.within m.outputMeasure.precision bound) := by
  obtain ⟨o, ho⟩ := (Value.exists_toNative_iff _ _).mpr fits
  rw [h.check_eq_lossAt ho, h.map_eq_lossAt single, bind_assoc]
  cases hx : lossAt m d with
  | error f => rfl
  | ok x =>
    have loss := isLoss_of_lossAt h.built hx
    obtain ⟨w, hw⟩ := exists_ofNative_loss loss (noCurve_of_hasCurves single)
    rw [ok_bind, ok_bind, hw, ok_bind, le_eq_within loss hw ho]
    rfl

/-- A loss that the map gives is a bound, and within itself. -/
theorem Entity.Represents.map_within_self (h : e.Represents (.measurement m))
    (single : (Mechanism.measurement m).hasCurves = false) {d w : Value} {l : Boundary.Ledger}
    (hw : (e.map d l).1 = .ok w) : w.Fits m.outputMeasure.boundType ∧
      (Elementary.IsSigned → w.within m.outputMeasure.precision w) := by
  rw [h.map_eq_lossAt single] at hw
  obtain ⟨x, hx, hw⟩ := bind_eq_ok_iff.mp hw
  exact ⟨fits_loss (isLoss_of_lossAt h.built hx) hw,
    fun signed => within_self (isProper_of_lossAt signed h.built hx) hw⟩

/-- The check of a reachable measurement without curves gives the verdict on the loss that the map
gives and the bound, both at the precision of the measure; the loss itself is always within. Where the
map fails the check fails with the same failure. -/
theorem check_agrees_with_map (reachable : (AnyEntity.measurement e).Reachable)
    (single : e.descriptors.isCurveValued = false) :
    ∃ measure : Measure, e.descriptors.outputDistance = measure.toText ∧
      e.descriptors.outputBound = measure.boundType ∧
      ∀ d l,
        (∀ w, (e.map d l).1 = .ok w →
          (∀ bound l', bound.Fits measure.boundType →
            (e.check d bound l').1 = .ok (w.within measure.precision bound)) ∧
          (Elementary.IsSigned → ∀ l', (e.check d w l').1 = .ok true)) ∧
        ∀ f, (e.map d l).1 = .error f → ∀ bound l', bound.Fits measure.boundType →
          (e.check d bound l').1 = .error f := by
  obtain ⟨n, represents⟩ := reachable.exists_represents
  cases n with
  | transformation t => cases Entity.Represents.role represents
  | measurement m =>
    have h : e.Represents (.measurement m) := represents
    have plain := h.isCurveValued_eq.symm.trans single
    refine ⟨m.outputMeasure, congrArg Descriptors.outputDistance h.descriptors,
      congrArg Descriptors.outputBound h.descriptors, fun d l => ⟨fun w hw => ?_, ?_⟩⟩
    · have verdict : ∀ bound l', bound.Fits m.outputMeasure.boundType →
          (e.check d bound l').1 = .ok (w.within m.outputMeasure.precision bound) := by
        intro bound l' fits
        rw [h.check_eq_map plain fits d l l', hw]
        rfl
      obtain ⟨fits, within⟩ := h.map_within_self plain hw
      refine ⟨verdict, fun signed l' => ?_⟩
      rw [verdict w l' fits, within signed]
    · intro f hf bound l' fits
      rw [h.check_eq_map plain fits d l l', hf]
      rfl

omit [Elementary] in
/-- Two-sided geometric noise of scale one on 32-bit integers: at distance one the loss is one. -/
theorem check_agrees_with_map_geometric :
    letI := Elementary.nearest
    ∃ (e : Entity .measurement) (w : Value), (AnyEntity.measurement e).Reachable ∧
      ∀ l, (e.map (.int ⟨1, by decide, by decide⟩) l).1 = .ok w ∧
        (e.check (.int ⟨1, by decide, by decide⟩) w l).1 = .ok true ∧
        (e.check (.int ⟨1, by decide, by decide⟩) (.float (1 / 2)) l).1 = .ok false := by
  let _ := Elementary.nearest
  obtain ⟨m, geometric, denoted⟩ : ∃ m, Measurement.geometric .i32 .one = .ok m ∧
      (Program.make ⟨.none⟩ (.geometric .one) []).denote = .ok (.measurement m) := ⟨_, rfl, rfl⟩
  obtain ⟨e, reachable, holds⟩ := AnyEntity.exists_measurement denoted
  have h : e.Represents (.measurement m) := reachable.represents holds
  obtain ⟨_, rfl⟩ := Measurement.geometric_eq_ok geometric
  have mapped : ∀ l, (e.map (.int ⟨1, by decide, by decide⟩) l).1 =
      .ok (.float (Binary.convert (Binary.ofInt 1 / .one : Binary .double))) := by
    intro l
    refine (h.map_eq_ok_iff _ _ l).mpr ⟨rfl, .integer .i32 ⟨1, by decide, by decide⟩,
      .float .double (Binary.ofInt 1 / Binary.one), rfl, ?_, rfl⟩
    have valid : Distance.validate (.integer .i32 ⟨1, by decide, by decide⟩) = .ok () := by
      unfold Value.integer Value.numeric Distance.validate
      exact if_pos (by decide +kernel)
    exact (Measurement.map_of_type rfl).trans (bind_eq_ok_iff.mpr ⟨(), valid, rfl⟩)
  have single : e.descriptors.isCurveValued = false := h.isCurveValued_eq
  obtain ⟨measure, printed, -, agree⟩ := check_agrees_with_map reachable single
  have same : measure = .maxDivergence .double :=
    Measure.toText_eq_iff.mp (printed.symm.trans (congrArg Descriptors.outputDistance h.descriptors))
  subst same
  refine ⟨e, _, reachable, fun l => ⟨mapped l, ?_, ?_⟩⟩
  · exact ((agree _ l).1 _ (mapped l)).2 Elementary.nearest_isMonotone.isSigned l
  · refine (((agree _ l).1 _ (mapped l)).1 _ l (.float _ _)).trans (congrArg Except.ok ?_)
    decide +kernel

end Checks

end Host

end PrivateRelease
