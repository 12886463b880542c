import PrivateRelease.Proofs.Host.Curves
import PrivateRelease.Proofs.Host.Releases
import PrivateRelease.Proofs.Number.Upward

/-!
# Readings of a curve

A privacy curve can be asked for an epsilon, checked against a pair, or fixed at one delta. It is asked
at a double, while the pair and the fixed delta have the precision of the losses. So the three agree
on the delta that this precision keeps, which is the given one for doubles.
-/

namespace PrivateRelease

namespace Binary

variable {p : Precision} {x : Binary p}

/-- A bound that was widened for the host and narrowed again is the same bound. -/
theorem le_convert_convert (y : Binary .double) (x : Binary p) :
    y.le ((x.convert : Binary .double).convert : Binary p).convert = y.le x.convert := by
  cases number : x.isNaN with
  | false => rw [convert_convert number]
  | true =>
    have incomparable : ∀ z : Binary .double, z.isNaN → y.le z = false := by
      intro z hz
      cases z with
      | nan => cases y.position <;> simp [Binary.le, position]
      | number => cases hz
    rw [incomparable, incomparable]
    · rw [isNaN_convert, number]
    · rw [isNaN_convert, isNaN_convert, isNaN_convert, number]

end Binary

namespace Measurement

variable {m fixed : Measurement} {delta : Binary .double} {p : Precision}

/-- Fixing a delta reads the curve that the map gives. -/
theorem fixDelta_map (hm : m.outputMeasure = .smoothedMaxDivergence p)
    (h : m.fixDelta delta = .ok fixed) (o : Value) : fixed.map o = (do
      let epsilon ← (← (← m.map o).toCurve).epsilon delta
      return .tuple [.upward p epsilon, .upward p delta]) := by
  obtain ⟨q, hq, _, rfl⟩ := fixDelta_eq_ok h
  cases hm.symm.trans hq
  unfold map boundAt
  dsimp only
  cases checkDistanceType m.inputMetric o with
  | error why => rfl
  | ok u => cases Distance.validate o <;> rfl

end Measurement

namespace Host

open Boundary Stop

/-- Consuming operations succeed as the actions they are. -/
theorem Consuming.eq_ok_iff {ι α : Type} {c : Consuming ι α} {l : Ledger} {x : α} :
    (c l).1 = .ok x ↔ (c.toAction l).1 = .ok x := by
  unfold Consuming.toAction
  split
  next made =>
    rw [made]
    exact ⟨fun h => congrArg _ (Except.ok.inj h), fun h => congrArg _ (Except.ok.inj h)⟩
  next made =>
    rw [made]
    exact ⟨nofun, nofun⟩

variable [Elementary] {e : Entity .measurement} {m : Measurement} {p : Precision}

omit [Elementary] in
/-- What a precision has kept it keeps. -/
theorem Value.roundUp_stored {x : Binary .double} (h : (stored p x).isNaN = false) :
    ((stored p x).roundUp p).convert = stored p x := by
  rw [← convert_convert_double] at h ⊢
  rw [Binary.isNaN_convert] at h
  rw [Binary.roundUp_convert h]

namespace Entity.Represents

theorem mapCurve_eq_lossAt (h : e.Represents (.measurement m))
    (hm : m.outputMeasure = .smoothedMaxDivergence p) (d : Value) (l : Ledger) :
    (e.mapCurve d l).1 = lossAt m d >>= fun x => .ok ⟨.ofObject x⟩ := by
  rw [h.mapCurve_eq (hasCurves_iff.mpr ⟨m, p, rfl, hm⟩), lossAt, bind_assoc, bind_assoc]
  rfl

/-- The curve of an entity is the loss of its measurement. -/
theorem exists_loss (h : e.Represents (.measurement m))
    (hm : m.outputMeasure = .smoothedMaxDivergence p) {d : Value} {l : Ledger} {c : Curve}
    (hc : (e.mapCurve d l).1 = .ok c) :
    ∃ k, lossAt m d = .ok (.curve k) ∧ c.Represents k := by
  rw [h.mapCurve_eq_lossAt hm] at hc
  obtain ⟨x, hx, hc⟩ := bind_eq_ok_iff.mp hc
  have loss := isLoss_of_lossAt h.built hx
  rw [hm] at loss
  cases hc
  cases loss with
  | curve _ total => exact ⟨_, hx, rfl, total⟩

/-- The check asks the curve at the delta that the precision keeps. -/
theorem check_curve (h : e.Represents (.measurement m))
    (hm : m.outputMeasure = .smoothedMaxDivergence p) {d : Value} {k : PrivateRelease.Curve}
    (hk : lossAt m d = .ok (.curve k)) (bound : Binary p) (delta : Binary .double) (l : Ledger) :
    (e.check d (.tuple [.float bound.convert, .float delta]) l).1 = (do
      let epsilon ← (k.epsilon (Value.stored p delta)).mapError .ofCore
      return epsilon.le bound.convert) := by
  have pair : (Value.tuple [.float bound.convert, .float delta]).toNative
      m.outputMeasure.boundType = .ok (.tuple [.float p (bound.convert : Binary .double).convert,
        .float p delta.convert]) := by
    rw [hm]
    exact Value.toNative_pair_eq_ok_iff.mpr ⟨_, _, _, _, rfl, rfl, rfl, rfl⟩
  rw [h.check_eq_lossAt pair, hk, ok_bind]
  have asked : Distance.le (.curve k) (.tuple [.float p (bound.convert : Binary .double).convert,
      .float p delta.convert]) = (do
        let epsilon ← k.epsilon (delta.convert : Binary p).convert
        return epsilon.le ((bound.convert : Binary .double).convert : Binary p).convert) := rfl
  rw [asked, Value.convert_convert_double, mapError_bind]
  simp only [Binary.le_convert_convert]
  rfl

omit [Elementary] in
theorem fixed_eq (hm : m.outputMeasure = .smoothedMaxDivergence p) (delta : Binary .double) :
    fixed m delta = Mechanism.measurement <$> core (m.fixDelta (Value.stored p delta)) := by
  unfold fixed
  rw [hm]
  show (core (m.fixDelta (delta.convert : Binary p).convert) >>= fun n =>
    pure (Mechanism.measurement n)) = _
  rw [Value.convert_convert_double]
  rfl

/-- Fixing a delta fixes the one that the precision keeps. -/
theorem fixDelta_represents (h : e.Represents (.measurement m))
    (hm : m.outputMeasure = .smoothedMaxDivergence p) {lib : Library} {delta : Binary .double}
    {l : Ledger} {f : Entity .measurement} (hf : (lib.fixDelta e delta l).1 = .ok f) :
    ∃ n, m.fixDelta (Value.stored p delta) = .ok n ∧ f.Represents (.measurement n) := by
  replace hf := Consuming.eq_ok_iff.mp hf
  have refined := fixDelta_refines (l := lib) h delta l.tape
  rw [fixed_eq hm] at refined
  cases hn : m.fixDelta (Value.stored p delta) with
  | ok n =>
    rw [hn] at refined
    obtain ⟨g, represents, made⟩ := refined
    obtain rfl := Except.ok.inj (hf.symm.trans (made l rfl).1)
    exact ⟨n, rfl, represents⟩
  | error why =>
    rw [hn] at refined
    replace refined : Evaluates (lib.fixDelta e delta).toAction l.tape
        (.error (.ofCore why)) l.tape := refined
    cases hf.symm.trans (refined l rfl).1

theorem exists_fixDelta (h : e.Represents (.measurement m))
    (hm : m.outputMeasure = .smoothedMaxDivergence p) {delta : Binary .double}
    (probability : PrivateRelease.Curve.isProbability (Value.stored p delta)) (lib : Library)
    (l : Ledger) : ∃ f, (lib.fixDelta e delta l).1 = .ok f := by
  obtain ⟨n, hn⟩ : ∃ n, m.fixDelta (Value.stored p delta) = .ok n := by
    simp only [Measurement.fixDelta, hm, probability]
    exact ⟨_, rfl⟩
  have refined := fixDelta_refines (l := lib) h delta l.tape
  rw [fixed_eq hm, hn] at refined
  obtain ⟨f, _, made⟩ := refined
  exact ⟨f, Consuming.eq_ok_iff.mpr (made l rfl).1⟩

omit [Elementary] in
/-- A fixed delta reads the curve of every distance there. -/
theorem lossAt_fixDelta (hm : m.outputMeasure = .smoothedMaxDivergence p) {n : Measurement}
    {delta : Binary .double} (hn : m.fixDelta delta = .ok n) {d : Value} {k : PrivateRelease.Curve}
    (hk : lossAt m d = .ok (.curve k)) : lossAt n d = (do
      let epsilon ← (k.epsilon delta).mapError .ofCore
      return .tuple [.upward p epsilon, .upward p delta]) := by
  obtain ⟨_, hd, hk⟩ := bind_eq_ok_iff.mp hk
  obtain ⟨o, ho, hk⟩ := bind_eq_ok_iff.mp hk
  have mapped := Measurement.fixDelta_map hm hn o
  rw [mapError_eq_ok_iff.mp hk] at mapped
  have same : (Mechanism.measurement n).expectDistance d = .ok () ∧
      d.toNative n.inputMetric.distanceType = .ok o := by
    obtain ⟨_, _, _, rfl⟩ := Measurement.fixDelta_eq_ok hn
    exact ⟨hd, ho⟩
  rw [ok_bind, show (PrivateRelease.Value.curve k).toCurve = .ok k from rfl, ok_bind] at mapped
  rw [lossAt, same.1, ok_bind, same.2, ok_bind, mapped, mapError_bind]
  rfl

/-- The map of a measurement with a fixed delta gives the epsilon that its curve has there. -/
theorem map_fixDelta (h : e.Represents (.measurement m))
    (hm : m.outputMeasure = .smoothedMaxDivergence p) {d : Value} {k : PrivateRelease.Curve}
    (hk : lossAt m d = .ok (.curve k)) {lib : Library} {delta : Binary .double} {l : Ledger}
    {f : Entity .measurement} (hf : (lib.fixDelta e delta l).1 = .ok f) (l' : Ledger) :
    (f.map d l').1 = (do
      let epsilon ← (k.epsilon (Value.stored p delta)).mapError .ofCore
      return .tuple [.float (epsilon.roundUp p).convert, .float (Value.stored p delta)]) := by
  obtain ⟨n, made, represents⟩ := h.fixDelta_represents hm hf
  have loss := lossAt_fixDelta hm made hk
  obtain ⟨q, hq, probability, rfl⟩ := Measurement.fixDelta_eq_ok made
  have number := (Curve.onSide_of_isProbability probability).isNaN_eq
  rw [represents.map_eq_lossAt rfl, loss]
  cases k.epsilon (Value.stored p delta) with
  | error why => rfl
  | ok epsilon =>
    have read : Value.ofNative (.tuple [.upward p epsilon, .upward p (Value.stored p delta)]) =
        .ok (.tuple [.float (epsilon.roundUp p).convert,
          .float ((Value.stored p delta).roundUp p).convert]) := rfl
    rw [Value.roundUp_stored number] at read
    exact read

end Entity.Represents

/-- A Gaussian release has a curve at every usable distance, which has an epsilon at every
probability. -/
theorem AnyEntity.exists_gaussian_curve (scale : Binary p) (h : Noise.isScale scale.convert)
    (x : Binary .double) (usable : Distance.isUsable (x.convert : Binary p).convert) :
    ∃ (e : Entity .measurement) (m : Measurement) (c : Curve) (k : PrivateRelease.Curve),
      (measurement e).Reachable ∧ e.Represents (.measurement m) ∧
      m.outputMeasure = .smoothedMaxDivergence p ∧ lossAt m (.float x) = .ok (.curve k) ∧
      (∀ l, (e.mapCurve (.float x) l).1 = .ok c) ∧ c.Represents k ∧
      ∀ delta, PrivateRelease.Curve.isProbability delta → ∃ epsilon, k.epsilon delta = .ok epsilon := by
  obtain ⟨e, m, reachable, represents, made⟩ := exists_gaussian scale h
  have loss := lossAt_gaussian made usable
  have measure : m.outputMeasure = .smoothedMaxDivergence p := by
    obtain ⟨_, rfl⟩ := Measurement.gaussian_eq_ok made
    rfl
  have mapped : ∀ l, (e.mapCurve (.float x) l).1 = .ok ⟨.ofObject (.curve _)⟩ := fun l => by
    rw [represents.mapCurve_eq_lossAt measure, loss]
    rfl
  obtain ⟨k, same, held⟩ := represents.exists_loss measure (mapped (.start (.seeded 0)))
  cases loss.symm.trans same
  exact ⟨e, m, _, _, reachable, represents, measure, loss, mapped, held, fun delta probability =>
    ⟨_, if_pos probability⟩⟩

/-- The three readings of a curve agree: its epsilon at the delta that the precision of the losses
keeps is what a check compares with the bound, and what the measurement with a fixed delta loses, up to
that precision. Where the curve has no epsilon there, a check fails for the same reason, and so does
the map of the measurement with a fixed delta if there is one. -/
theorem curve_readings_agree (reachable : (AnyEntity.measurement e).Reachable)
    (curved : e.descriptors.isCurveValued = true) :
    ∃ p : Precision, e.descriptors.outputDistance = (Measure.smoothedMaxDivergence p).toText ∧
      ∀ d l c, (e.mapCurve d l).1 = .ok c → ∀ delta l',
        (∀ epsilon, (c.epsilon (Value.stored p delta) l').1 = .ok epsilon →
          (∀ (bound : Binary p) l, (e.check d (.tuple [.float bound.convert, .float delta]) l).1 =
            .ok (epsilon.le bound.convert)) ∧
          ∀ (lib : Library) l, ∃ f, (lib.fixDelta e delta l).1 = .ok f ∧
            ∀ l, (f.map d l).1 = .ok (.tuple [.float (epsilon.roundUp p).convert,
              .float (Value.stored p delta)])) ∧
        ∀ why, (c.epsilon (Value.stored p delta) l').1 = .error why →
          (∀ (bound : Binary p) l,
            (e.check d (.tuple [.float bound.convert, .float delta]) l).1 = .error why) ∧
          ∀ (lib : Library) l f, (lib.fixDelta e delta l).1 = .ok f →
            ∀ l, (f.map d l).1 = .error why := by
  obtain ⟨n, represents⟩ := reachable.exists_represents
  cases n with
  | transformation t => cases Entity.Represents.role represents
  | measurement m =>
    have h : e.Represents (.measurement m) := represents
    obtain ⟨_, p, same, hm⟩ := Entity.Represents.hasCurves_iff.mp (h.isCurveValued_eq.symm.trans curved)
    cases same
    have printed : e.descriptors.outputDistance = m.outputMeasure.toText :=
      congrArg Descriptors.outputDistance h.descriptors
    refine ⟨p, hm ▸ printed, fun d l c hc delta l' => ?_⟩
    obtain ⟨k, loss, represents⟩ := h.exists_loss hm hc
    have asked : (c.epsilon (Value.stored p delta) l').1 =
        (k.epsilon (Value.stored p delta)).mapError .ofCore :=
      (represents.evaluates_epsilon (Value.stored p delta) l'.tape l' rfl).1
    constructor
    · intro epsilon read
      rw [asked] at read
      refine ⟨fun bound l => by rw [h.check_curve hm loss, read]; rfl, fun lib l => ?_⟩
      have probability := (PrivateRelease.Curve.epsilon_eq_ok (mapError_eq_ok_iff.mp read)).1
      obtain ⟨f, made⟩ := h.exists_fixDelta hm probability lib l
      exact ⟨f, made, fun l => by rw [h.map_fixDelta hm loss made, read]; rfl⟩
    · intro why failed
      rw [asked] at failed
      exact ⟨fun bound l => by rw [h.check_curve hm loss, failed]; rfl,
        fun lib l f made l => by rw [h.map_fixDelta hm loss made, failed]; rfl⟩

omit [Elementary] in
/-- Gaussian noise of scale one in single precision, read at distance one and delta one half. -/
theorem curve_readings_agree_gaussian :
    letI := Elementary.machine
    letI half : Binary .double := .number false (1022 * Precision.double.binade) (by decide)
    ∃ (e : Entity .measurement) (c : Curve) (epsilon : Binary .double),
      (AnyEntity.measurement e).Reachable ∧
      (∀ l, (e.mapCurve (.float .one) l).1 = .ok c ∧ (c.epsilon half l).1 = .ok epsilon) ∧
      (∀ (bound : Binary .single) l,
        (e.check (.float .one) (.tuple [.float bound.convert, .float half]) l).1 =
          .ok (epsilon.le bound.convert)) ∧
      ∀ (lib : Library) l, ∃ f, (lib.fixDelta e half l).1 = .ok f ∧
        ∀ l, (f.map (.float .one) l).1 =
          .ok (.tuple [.float (epsilon.roundUp .single).convert, .float half]) := by
  let _ := Elementary.machine
  let half : Binary .double := .number false (1022 * Precision.double.binade) (by decide)
  have kept : Value.stored .single half = half := by decide +kernel
  obtain ⟨e, m, c, k, reachable, h, measure, _, mapped, held, total⟩ :=
    AnyEntity.exists_gaussian_curve (p := .single) .one (by decide +kernel) .one (by decide +kernel)
  obtain ⟨epsilon, he⟩ := total half (by decide +kernel)
  have asked : ∀ l, (c.epsilon half l).1 = .ok epsilon := fun l => by
    rw [(held.evaluates_epsilon half l.tape l rfl).1, he]
    rfl
  have curved : e.descriptors.isCurveValued = true :=
    h.isCurveValued_eq.trans (Entity.Represents.hasCurves_iff.mpr ⟨m, .single, rfl, measure⟩)
  have printed : e.descriptors.outputDistance = m.outputMeasure.toText :=
    congrArg Descriptors.outputDistance h.descriptors
  obtain ⟨p, printed', agree⟩ := curve_readings_agree reachable curved
  have same := Measure.toText_eq_iff.mp (printed'.symm.trans printed)
  cases same.trans measure
  let l : Ledger := .start (.seeded 0)
  have readings := (agree (.float .one) l c (mapped l) half l).1 epsilon
  rw [kept] at readings
  obtain ⟨checked, fixed⟩ := readings (asked l)
  exact ⟨e, c, epsilon, reachable, fun l => ⟨mapped l, asked l⟩, checked, fixed⟩

omit [Elementary] in
/-- The curve of Gaussian noise in single precision has an epsilon at a delta of `2⁻²⁰⁰`, but no check
and no fixed delta takes this delta. -/
theorem narrow_delta_refused :
    letI := Elementary.machine
    letI delta : Binary .double := .number false (823 * Precision.double.binade) (by decide)
    ∃ e : Entity .measurement, (AnyEntity.measurement e).Reachable ∧
      PrivateRelease.Curve.isProbability delta ∧
      (∀ l, ∃ c epsilon, (e.mapCurve (.float .one) l).1 = .ok c ∧ (c.epsilon delta l).1 = .ok epsilon) ∧
      (∀ (bound : Binary .single) l, ∃ f,
        (e.check (.float .one) (.tuple [.float bound.convert, .float delta]) l).1 = .error f) ∧
      ∀ (lib : Library) l, ∃ f, (lib.fixDelta e delta l).1 = .error f := by
  let _ := Elementary.machine
  let delta : Binary .double := .number false (823 * Precision.double.binade) (by decide)
  have lost : PrivateRelease.Curve.isProbability (Value.stored .single delta) = false := by
    decide +kernel
  obtain ⟨e, m, c, k, reachable, h, measure, loss, mapped, held, total⟩ :=
    AnyEntity.exists_gaussian_curve (p := .single) .one (by decide +kernel) .one (by decide +kernel)
  have proper : PrivateRelease.Curve.isProbability delta := by decide +kernel
  obtain ⟨epsilon, he⟩ := total delta proper
  refine ⟨e, reachable, proper, fun l => ⟨c, epsilon, mapped l, ?_⟩, fun bound l => ?_,
    fun lib l => ?_⟩
  · rw [(held.evaluates_epsilon delta l.tape l rfl).1, he]
    rfl
  · rw [h.check_curve measure loss, PrivateRelease.Curve.epsilon, lost]
    exact ⟨_, rfl⟩
  · refine exists_error fun f made => ?_
    obtain ⟨n, fixed, _⟩ := h.fixDelta_represents measure made
    obtain ⟨_, _, probability, _⟩ := Measurement.fixDelta_eq_ok fixed
    rw [lost] at probability
    cases probability

end Host

end PrivateRelease
