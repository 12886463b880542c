import PrivateRelease.Proofs.Mechanism.Distances

/-!
# The losses of measurements

The map of a built measurement gives a loss of its output measure: a number, a pair or a curve, all
of the precision of the measure. A curve is a function again, so what it may do at a delta is part of
being a loss; composed curves ask the curves they are made of.
-/

namespace PrivateRelease

/-- A curve that fails only at an unusable number. -/
def Curve.IsTotal (c : Curve) : Prop := ∀ delta, Maps (fun _ => True) (c.epsilon delta)

namespace Curve

theorem IsTotal.ofRule {c : Curve} (h : ∀ delta, Maps (fun _ => True) (c.rule delta)) :
    c.IsTotal := by
  intro delta
  unfold epsilon
  split
  · exact h delta
  · trivial

end Curve

namespace Measure

inductive IsLoss : Measure → Value → Prop where
  | number {p : Precision} (x : Binary p) : IsLoss (.maxDivergence p) (.float p x)
  | curve {p : Precision} {c : Curve} :
      c.carrier = .float p → c.IsTotal → IsLoss (.smoothedMaxDivergence p) (.curve c)
  | pair {p : Precision} (epsilon delta : Binary p) :
      IsLoss (.fixedSmoothedMaxDivergence p) (.tuple [.float p epsilon, .float p delta])

theorem IsLoss.type_eq {m : Measure} {l : Value} (h : m.IsLoss l) : l.type = m.distanceType := by
  cases h with
  | number x => rfl
  | curve hc _ => simp [Value.type, Curve.descriptor, hc, distanceType]
  | pair e d => rfl

theorem IsLoss.toDouble {p : Precision} {l : Value} (h : IsLoss (.maxDivergence p) l) :
    Maps (fun _ => True) l.toDouble := by
  cases h
  trivial

theorem IsLoss.toCurve {p : Precision} {l : Value} (h : IsLoss (.smoothedMaxDivergence p) l) :
    Maps Curve.IsTotal l.toCurve := by
  cases h with
  | curve _ h => exact h

theorem IsLoss.splitPair {p : Precision} {l : Value}
    (h : IsLoss (.fixedSmoothedMaxDivergence p) l) :
    Maps (fun _ => True) (CompositionRule.splitPair l) := by
  cases h
  trivial

/-- A loss compares with every bound of its measure. -/
theorem IsLoss.le_maps {m : Measure} {l bound : Value} (h : m.IsLoss l)
    (hb : bound.type = m.boundType) : Maps (fun _ => True) (Distance.le l bound) := by
  cases h with
  | number x =>
    obtain ⟨y, rfl⟩ := Value.type_eq_numeric_iff.mp hb
    exact Distance.le_numeric_maps x y
  | curve _ hc =>
    obtain ⟨epsilon, delta, rfl⟩ := Value.type_eq_pair_iff.mp hb
    unfold Distance.le
    exact (hc _).bind fun _ _ => trivial
  | pair e d =>
    obtain ⟨e', d', rfl⟩ := Value.type_eq_pair_iff.mp hb
    exact Distance.le_pair_maps e d e' d'

end Measure

/-! ## Composed losses -/

namespace CompositionRule

theorem splitPairs_maps {p : Precision} {losses : List Value}
    (h : ∀ l ∈ losses, Measure.IsLoss (.fixedSmoothedMaxDivergence p) l) :
    Maps (fun _ => True) (splitPairs losses) :=
  (Yields.mapM fun l hl => (h l hl).splitPair).bind fun _ _ => trivial

theorem sumCurve_isTotal {p : Precision} {curves : List Curve} (h : ∀ c ∈ curves, c.IsTotal) :
    (sumCurve p curves).IsTotal :=
  .ofRule fun _ => (Yields.mapM fun c hc => h c hc _).bind fun _ _ => trivial

theorem composeAdditive_maps {m : Measure} {losses : List Value} (h : ∀ l ∈ losses, m.IsLoss l) :
    Maps m.IsLoss (composeAdditive m losses) := by
  cases m with
  | maxDivergence p =>
    exact (Yields.mapM fun l hl => (h l hl).toDouble).bind fun _ _ => .pure (.number _)
  | smoothedMaxDivergence p =>
    refine (Yields.mapM fun l hl => (h l hl).toCurve).bind fun curves hc => .pure ?_
    exact .curve rfl (sumCurve_isTotal hc)
  | fixedSmoothedMaxDivergence p =>
    exact (splitPairs_maps h).bind fun _ _ => .pure (.pair _ _)

/-- Every rule composes losses to a loss if it supports their measure. -/
theorem compose_maps [Elementary] {rule : CompositionRule} {m : Measure} {losses : List Value}
    (hs : rule.supports m = .ok ()) (h : ∀ l ∈ losses, m.IsLoss l) :
    Maps m.IsLoss (rule.compose m losses) := by
  cases rule with
  | additive => exact composeAdditive_maps h
  | advanced deltaPrime =>
    cases m with
    | fixedSmoothedMaxDivergence p =>
      exact (splitPairs_maps h).bind fun _ _ => .pure (.pair _ _)
    | maxDivergence p => cases hs
    | smoothedMaxDivergence p => cases hs

end CompositionRule

/-! ## Measurements -/

namespace Measurement

/-- Distances of the input metric are mapped to losses of the output measure. -/
def MapsDistances (m : Measurement) : Prop :=
  ∀ d, d.type = m.inputMetric.distanceType → Maps m.outputMeasure.IsLoss (m.boundAt d)

theorem MapsDistances.ofNumber {m : Measurement} {q : Numeric} (hm : m.inputMetric.distance = q)
    (h : ∀ x, Maps m.outputMeasure.IsLoss (m.privacy (.numeric q x))) : m.MapsDistances := by
  intro d hd
  rw [Metric.distanceType, hm] at hd
  obtain ⟨x, rfl⟩ := Value.type_eq_numeric_iff.mp hd
  exact (Distance.validate_maps x).bind fun _ _ => h x

theorem MapsDistances.chain {second m : Measurement} {first : Transformation}
    (hs : second.MapsDistances) (hf : first.MapsDistances)
    (h : Measurement.chain second first = .ok m) : m.MapsDistances := by
  obtain ⟨_, hm, rfl⟩ := chain_eq_ok h
  refine .ofNumber rfl fun x => (hf _ rfl).bind fun l hl => hs l ?_
  rw [hl, hm]

theorem MapsDistances.compose [Elementary] {rule : CompositionRule} {ms : List Measurement}
    {m : Measurement} (hms : ∀ part ∈ ms, part.MapsDistances)
    (h : Measurement.compose rule ms = .ok m) : m.MapsDistances := by
  obtain ⟨first, rest, rfl, ha, hs, rfl⟩ := compose_eq_ok h
  refine .ofNumber rfl fun x => Yields.bind (Yields.mapM fun part hp => ?_) fun losses hl =>
    CompositionRule.compose_maps hs hl
  obtain ⟨metric, measure⟩ := metric_and_measure ha hp
  rw [← measure]
  exact hms part hp _ (by rw [metric]; rfl)

theorem MapsDistances.amplify [Elementary] {part m : Measurement} {population : Nat}
    (hp : part.MapsDistances) (h : part.amplify population = .ok m) : m.MapsDistances := by
  obtain ⟨_, _, p, unit, _, _, _, hm, hu, rfl⟩ := amplify_eq_ok h
  have distance := Metric.distance_of_oneRecord? hu
  -- The number of one record and the distance itself are both counts of records.
  have loss : ∀ n, Maps (Measure.IsLoss (.maxDivergence p)) (part.boundAt (.integer .u32 n)) := by
    intro n
    rw [← hm]
    exact hp _ (by rw [Metric.distanceType, distance]; rfl)
  refine .ofNumber distance fun n => ?_
  refine (loss _).bind fun one h1 => h1.toDouble.bind fun _ _ => ?_
  refine (loss n).bind fun plain hl => hl.toDouble.bind fun _ _ => ?_
  simp only [hm]
  exact .number _

theorem MapsDistances.fixDelta {part m : Measurement} {delta : Binary .double}
    (hp : part.MapsDistances) (h : part.fixDelta delta = .ok m) : m.MapsDistances := by
  obtain ⟨p, hm, _, rfl⟩ := fixDelta_eq_ok h
  refine .ofNumber rfl fun x => ?_
  have loss := hp (.numeric _ x) rfl
  rw [hm] at loss
  refine loss.bind fun l hl => hl.toCurve.bind fun c hc => ?_
  exact (hc delta).bind fun _ _ => .pure (.pair _ _)

theorem Built.mapsDistances [Elementary] {m : Measurement} (h : m.Built) : m.MapsDistances := by
  induction h with
  | laplace h =>
    obtain ⟨_, rfl⟩ := laplace_eq_ok h
    exact .ofNumber rfl fun x => .number _
  | gaussian h =>
    obtain ⟨_, rfl⟩ := gaussian_eq_ok h
    exact .ofNumber rfl fun x => .curve rfl (.ofRule fun _ => trivial)
  | geometric h =>
    obtain ⟨_, rfl⟩ := geometric_eq_ok h
    exact .ofNumber rfl fun x => .number _
  | chain _ hf h second => exact second.chain hf.mapsDistances h
  | compose _ _ h parts => exact .compose parts h
  | amplify _ h part => exact part.amplify h
  | fixDelta _ h part => exact part.fixDelta h

theorem MapsDistances.map {m : Measurement} (h : m.MapsDistances) {d : Value}
    (hd : d.type = m.inputMetric.distanceType) : Maps m.outputMeasure.IsLoss (m.map d) := by
  rw [Measurement.map, checkDistanceType, if_pos hd]
  exact h d hd

theorem MapsDistances.check {m : Measurement} (h : m.MapsDistances) {d bound : Value}
    (hd : d.type = m.inputMetric.distanceType) (hb : bound.type = m.outputMeasure.boundType) :
    Maps (fun _ => True) (m.check d bound) :=
  (h.map hd).bind fun _ hl => hl.le_maps hb

end Measurement

/-- At a distance of the input metric, the map of a built mechanism gives a distance or loss of the
declared type, or fails as a map; so does the check against any bound of the declared type. -/
theorem Mechanism.built_maps_agree [Elementary] :
    (∀ t : Transformation, t.Built → ∀ d, d.type = t.inputMetric.distanceType →
      Yields (fun e => e.kind = .failedMap) (fun l => l.type = t.outputMetric.distanceType)
        (t.map d) ∧
      ∀ bound, bound.type = t.outputMetric.distanceType →
        Yields (fun e => e.kind = .failedMap) (fun _ => True) (t.check d bound)) ∧
    (∀ m : Measurement, m.Built → ∀ d, d.type = m.inputMetric.distanceType →
      Yields (fun e => e.kind = .failedMap) (fun l => l.type = m.outputMeasure.distanceType)
        (m.map d) ∧
      ∀ bound, bound.type = m.outputMeasure.boundType →
        Yields (fun e => e.kind = .failedMap) (fun _ => True) (m.check d bound)) := by
  constructor
  · intro t ht d hd
    have distances := ht.mapsDistances
    constructor
    · exact (distances.map hd).mono (fun _ => Error.IsUnusable.kind_eq) fun _ hl => hl
    · intro bound hb
      exact (distances.check hd hb).mono (fun _ => Error.IsUnusable.kind_eq) fun _ hl => hl
  · intro m hm d hd
    have distances := hm.mapsDistances
    constructor
    · exact (distances.map hd).mono (fun _ => Error.IsUnusable.kind_eq) fun _ hl => hl.type_eq
    · intro bound hb
      exact (distances.check hd hb).mono (fun _ => Error.IsUnusable.kind_eq) fun _ hl => hl

end PrivateRelease
