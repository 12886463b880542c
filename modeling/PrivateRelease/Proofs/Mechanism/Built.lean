import PrivateRelease.Mechanism
import PrivateRelease.Mechanism.Amplification
import PrivateRelease.Mechanism.Chain
import PrivateRelease.Mechanism.Composition
import PrivateRelease.Mechanism.Dataset
import PrivateRelease.Mechanism.Release
import PrivateRelease.Proofs.Outcome

/-!
# Built mechanisms

What the constructors and combinators of the library build, nested to any depth, and what each of
them says about its parts when it succeeds.
-/

namespace PrivateRelease

/-- The rules that there are: `ofDeltaPrime` makes no other advanced one. -/
def CompositionRule.IsProper : CompositionRule → Prop
  | additive => True
  | advanced deltaPrime => Curve.isProbability deltaPrime = true

theorem checkBoundary_eq_ok {first : Transformation} {d : Domain} {m : Metric} {u : Unit}
    (h : checkBoundary first d m = .ok u) :
    first.outputDomain.same d = true ∧ first.outputMetric = m := by
  unfold checkBoundary at h
  split at h
  · cases h
  next hd =>
  split at h
  · cases h
  next hm => exact ⟨by simpa using hd, by simpa using hm⟩

namespace Transformation

inductive Built : Transformation → Prop where
  | identity (p : Primitive) : Built (.identity p)
  | clamp {p : Primitive} {lower upper : p.Carrier} {t : Transformation} :
      clamp p lower upper = .ok t → Built t
  | boundedSum {p : Precision} {lower upper : Binary p} {t : Transformation} :
      boundedSum p lower upper = .ok t → Built t
  | boundedMean {p : Precision} {lower upper : Binary p} {n : Nat} {inputMetric outputMetric : Metric}
      {t : Transformation} : boundedMean p lower upper n inputMetric outputMetric = .ok t → Built t
  | count (p : Primitive) : Built (.count p)
  | chain {second first t : Transformation} :
      Built second → Built first → chain second first = .ok t → Built t

theorem clamp_eq_ok {p : Primitive} {lower upper : p.Carrier} {t : Transformation}
    (h : clamp p lower upper = .ok t) :
    ∃ bounded, between p lower upper = .ok bounded ∧ t = {
      inputDomain := .vector (.all (.primitive p))
      outputDomain := .vector bounded
      function := fun v => do return .vector p ((← v.toVector p).map (clampTo lower upper))
      inputMetric := .symmetricDistance
      outputMetric := .symmetricDistance
      stability := keepsRecords } := by
  obtain ⟨_, _, h⟩ := bind_eq_ok_iff.mp h
  obtain ⟨bounded, hb, h⟩ := bind_eq_ok_iff.mp h
  exact ⟨bounded, hb, (Except.ok.inj h).symm⟩

theorem boundedSum_eq_ok {p : Precision} {lower upper : Binary p} {t : Transformation}
    (h : boundedSum p lower upper = .ok t) :
    ∃ bounded, between (.numeric (.float p)) lower upper = .ok bounded ∧ t = {
      inputDomain := .vector bounded
      outputDomain := .all (.float p)
      function := fun v => do
        return .float p (Binary.sum (← v.toVector (.numeric (.float p))))
      inputMetric := .symmetricDistance
      outputMetric := .l1Sensitivity (.float p)
      stability := fun d => do return .upward p ((← records d) * magnitude lower upper) } := by
  obtain ⟨_, _, h⟩ := bind_eq_ok_iff.mp h
  obtain ⟨bounded, hb, h⟩ := bind_eq_ok_iff.mp h
  exact ⟨bounded, hb, (Except.ok.inj h).symm⟩

theorem boundedMean_eq_ok {p : Precision} {lower upper : Binary p} {n : Nat}
    {inputMetric outputMetric : Metric} {t : Transformation}
    (h : boundedMean p lower upper n inputMetric outputMetric = .ok t) :
    n ≠ 0 ∧ isSensitivity p outputMetric = true ∧ ∃ oneRecord bounded,
      inputMetric.oneRecord? = some oneRecord ∧
      between (.numeric (.float p)) lower upper = .ok bounded ∧ t = {
        inputDomain := .sized (.vector bounded) n
        outputDomain := .all (.float p)
        function := fun v => do
          return .float p (Binary.sum (← v.toVector (.numeric (.float p))) /
            Binary.convert (.ofNat n : Binary .double))
        inputMetric := inputMetric
        outputMetric := outputMetric
        stability := fun d => do
          return .upward p ((← records d) * (upper.convert - lower.convert) /
            (Binary.ofNat oneRecord * Binary.ofNat n)) } := by
  obtain ⟨_, _, h⟩ := bind_eq_ok_iff.mp h
  by_cases hn : n = 0
  · simp [hn] at h
  cases ho : inputMetric.oneRecord? with
  | none => simp [hn, ho] at h
  | some oneRecord =>
    cases hs : isSensitivity p outputMetric with
    | false => simp [hn, ho, hs] at h
    | true =>
      simp only [hn, ho, hs, Bool.not_true, Bool.false_eq_true, if_false] at h
      obtain ⟨bounded, hb, h⟩ := bind_eq_ok_iff.mp h
      exact ⟨hn, rfl, oneRecord, bounded, rfl, hb, (Except.ok.inj h).symm⟩

theorem chain_eq_ok {second first t : Transformation} (h : chain second first = .ok t) :
    first.outputDomain.same second.inputDomain = true ∧ first.outputMetric = second.inputMetric ∧
    t = {
      inputDomain := first.inputDomain
      outputDomain := second.outputDomain
      function := fun v => do second.function (← first.function v)
      inputMetric := first.inputMetric
      outputMetric := second.outputMetric
      stability := fun d => do second.boundAt (← first.boundAt d) } := by
  obtain ⟨_, hc, h⟩ := bind_eq_ok_iff.mp h
  obtain ⟨hd, hm⟩ := checkBoundary_eq_ok hc
  exact ⟨hd, hm, (Except.ok.inj h).symm⟩

end Transformation

namespace Measurement

inductive Built [Elementary] : Measurement → Prop where
  | laplace {p : Precision} {scale : Binary p} {m : Measurement} :
      laplace p scale = .ok m → Built m
  | gaussian {p : Precision} {scale : Binary p} {m : Measurement} :
      gaussian p scale = .ok m → Built m
  | geometric {k : IntegerType} {scale : Binary .double} {m : Measurement} :
      geometric k scale = .ok m → Built m
  | chain {second m : Measurement} {first : Transformation} :
      Built second → first.Built → chain second first = .ok m → Built m
  | compose {rule : CompositionRule} {ms : List Measurement} {m : Measurement} :
      rule.IsProper → (∀ part ∈ ms, Built part) → compose rule ms = .ok m → Built m
  | amplify {part m : Measurement} {population : Nat} :
      Built part → part.amplify population = .ok m → Built m
  | fixDelta {part m : Measurement} {delta : Binary .double} :
      Built part → part.fixDelta delta = .ok m → Built m

theorem chain_eq_ok {second m : Measurement} {first : Transformation}
    (h : chain second first = .ok m) :
    first.outputDomain.same second.inputDomain = true ∧ first.outputMetric = second.inputMetric ∧
    m = {
      inputDomain := first.inputDomain
      outputDomain := second.outputDomain
      function := fun v => do second.function (← Sampling.ofExcept (first.function v))
      inputMetric := first.inputMetric
      outputMeasure := second.outputMeasure
      privacy := fun d => do second.boundAt (← first.boundAt d) } := by
  obtain ⟨_, hc, h⟩ := bind_eq_ok_iff.mp h
  obtain ⟨hd, hm⟩ := checkBoundary_eq_ok hc
  exact ⟨hd, hm, (Except.ok.inj h).symm⟩

/-- Measurements agree when they can be released together. -/
structure Agrees (first m : Measurement) : Prop where
  domain : m.inputDomain.same first.inputDomain = true
  metric : m.inputMetric = first.inputMetric
  measure : m.outputMeasure = first.outputMeasure

theorem metric_and_measure {first part : Measurement} {rest : List Measurement}
    (agree : ∀ m ∈ rest, Agrees first m) (h : part ∈ first :: rest) :
    part.inputMetric = first.inputMetric ∧ part.outputMeasure = first.outputMeasure := by
  rcases List.mem_cons.mp h with rfl | h
  · exact ⟨rfl, rfl⟩
  · exact ⟨(agree part h).metric, (agree part h).measure⟩

theorem checkAgree_eq_ok {first : Measurement} {index : Nat} {ms : List Measurement} {u : Unit}
    (h : checkAgree first index ms = .ok u) : ∀ m ∈ ms, Agrees first m := by
  induction ms generalizing index with
  | nil => simp
  | cons m ms ih =>
    unfold checkAgree at h
    split at h
    · cases h
    next hd =>
    split at h
    · cases h
    next hm =>
    split at h
    · cases h
    next ho =>
    have first : Agrees first m := ⟨by simpa using hd, by simpa using hm, by simpa using ho⟩
    simpa using ⟨first, ih h⟩

/-- A release is made exactly if its scale is right. -/
theorem checkScale_then_iff {scale : Binary .double} {release m : Measurement} :
    (do checkScale scale; return release) = Except.ok m ↔
      Noise.isScale scale = true ∧ m = release := by
  unfold checkScale
  split
  case isTrue h => exact ⟨fun e => ⟨h, (Except.ok.inj e).symm⟩, fun e => congrArg _ e.2.symm⟩
  case isFalse h => exact ⟨fun e => (by cases e), fun e => absurd e.1 h⟩

variable [Elementary]

theorem laplace_eq_ok {p : Precision} {scale : Binary p} {m : Measurement}
    (h : laplace p scale = .ok m) :
    Noise.isScale scale.convert = true ∧ m = {
      inputDomain := .all (.float p)
      outputDomain := .all (.float p)
      function := addNoise p (Noise.laplace scale.convert)
      inputMetric := .l1Sensitivity (.float p)
      outputMeasure := .maxDivergence p
      privacy := fun d => do return .upward p ((← d.toDouble) / scale.convert) } :=
  checkScale_then_iff.mp h

theorem gaussian_eq_ok {p : Precision} {scale : Binary p} {m : Measurement}
    (h : gaussian p scale = .ok m) :
    Noise.isScale scale.convert = true ∧ m = {
      inputDomain := .all (.float p)
      outputDomain := .all (.float p)
      function := addNoise p (Noise.gaussian scale.convert)
      inputMetric := .l2Sensitivity (.float p)
      outputMeasure := .smoothedMaxDivergence p
      privacy := fun d => do
        let ratio := (← d.toDouble) / scale.convert
        return .curve (concentratedCurve p (ratio * ratio / 2)) } :=
  checkScale_then_iff.mp h

theorem geometric_eq_ok {k : IntegerType} {scale : Binary .double} {m : Measurement}
    (h : geometric k scale = .ok m) :
    Noise.isScale scale = true ∧ m = {
      inputDomain := .all (.integer k)
      outputDomain := .all (.integer k)
      function := fun v => do
        let x ← Sampling.ofExcept (v.toScalar (.numeric (.integer k)))
        let n := Bounded.val x
        return .integer k (Bounded.clamp k (Noise.clampWide (n + (← Noise.geometric scale))))
      inputMetric := .absoluteDistance (.integer k)
      outputMeasure := .maxDivergence .double
      privacy := fun d => do return .float .double ((← d.toDouble) / scale) } :=
  checkScale_then_iff.mp h

theorem exists_laplace {p : Precision} {scale : Binary p} (h : Noise.isScale scale.convert) :
    ∃ m, laplace p scale = .ok m :=
  ⟨_, checkScale_then_iff.mpr ⟨h, rfl⟩⟩

theorem exists_gaussian {p : Precision} {scale : Binary p} (h : Noise.isScale scale.convert) :
    ∃ m, gaussian p scale = .ok m :=
  ⟨_, checkScale_then_iff.mpr ⟨h, rfl⟩⟩

theorem exists_geometric {scale : Binary .double} (k : IntegerType) (h : Noise.isScale scale) :
    ∃ m, geometric k scale = .ok m :=
  ⟨_, checkScale_then_iff.mpr ⟨h, rfl⟩⟩

theorem compose_eq_ok {rule : CompositionRule} {ms : List Measurement} {m : Measurement}
    (h : compose rule ms = .ok m) :
    ∃ first rest, ms = first :: rest ∧ (∀ part ∈ rest, Agrees first part) ∧
      rule.supports first.outputMeasure = .ok () ∧ m = {
        inputDomain := first.inputDomain
        outputDomain := .product (ms.map (·.outputDomain))
        function := fun v => do return .tuple (← ms.mapM fun part => part.function v)
        inputMetric := first.inputMetric
        outputMeasure := first.outputMeasure
        privacy := fun d => do
          rule.compose first.outputMeasure (← ms.mapM fun part => part.boundAt d) } := by
  cases ms with
  | nil => cases h
  | cons first rest =>
    obtain ⟨_, ha, h⟩ := bind_eq_ok_iff.mp h
    obtain ⟨_, hs, h⟩ := bind_eq_ok_iff.mp h
    exact ⟨first, rest, rfl, checkAgree_eq_ok ha, hs, (Except.ok.inj h).symm⟩

theorem amplify_eq_ok {part m : Measurement} {population : Nat}
    (h : part.amplify population = .ok m) :
    ∃ records sample p unit, part.inputDomain.sizedRecords? = some (records, sample) ∧
      sample ≠ 0 ∧ sample ≤ population ∧ part.outputMeasure = .maxDivergence p ∧
      part.inputMetric.oneRecord? = some unit ∧ m = { part with
        privacy := part.amplifiedLoss p unit (Binary.ofNat sample / Binary.ofNat population) } := by
  unfold amplify at h
  cases hd : part.inputDomain.sizedRecords? with
  | none => simp [hd] at h
  | some domain =>
    obtain ⟨records, sample⟩ := domain
    by_cases hn : sample = 0 ∨ population < sample
    · simp [hd, hn] at h
    cases hm : part.outputMeasure with
    | maxDivergence p =>
      cases hu : part.inputMetric.oneRecord? with
      | none => simp [hd, hn, hm, hu] at h
      | some unit =>
        simp only [hd, hn, hm, hu, if_false] at h
        exact ⟨records, sample, p, unit, rfl, by omega, by omega, rfl, rfl, (Except.ok.inj h).symm⟩
    | smoothedMaxDivergence p => simp [hd, hn, hm] at h
    | fixedSmoothedMaxDivergence p => simp [hd, hn, hm] at h

omit [Elementary] in
theorem fixDelta_eq_ok {part m : Measurement} {delta : Binary .double}
    (h : part.fixDelta delta = .ok m) :
    ∃ p, part.outputMeasure = .smoothedMaxDivergence p ∧ Curve.isProbability delta = true ∧
      m = { part with
        outputMeasure := .fixedSmoothedMaxDivergence p
        privacy := fun d => do
          let epsilon ← (← (← part.boundAt d).toCurve).epsilon delta
          return .tuple [.upward p epsilon, .upward p delta] } := by
  unfold fixDelta at h
  cases hm : part.outputMeasure with
  | smoothedMaxDivergence p =>
    cases hp : Curve.isProbability delta with
    | false => simp [hm, hp] at h
    | true =>
      simp only [hm, hp, Bool.not_true, Bool.false_eq_true, if_false] at h
      exact ⟨p, rfl, rfl, (Except.ok.inj h).symm⟩
  | maxDivergence p => simp [hm] at h
  | fixedSmoothedMaxDivergence p => simp [hm] at h

end Measurement

end PrivateRelease
