import PrivateRelease.Mechanism.Basic
import PrivateRelease.Number.Elementary

/-!
# Amplification and fixed deltas

A dataset drawn without replacement from a larger population loses less privacy: with `k` records
changed, loss `e` for one, and the fraction `r` of the population sampled, the loss is
`k · ln (1 + r (exp e - 1))`, or the plain loss if that is smaller.

A measurement whose loss is a curve becomes one whose loss is a pair by choosing a delta.
-/

namespace PrivateRelease

namespace Measurement

/-- The input distance in changed records, of which each is worth `unit`. -/
def changedRecords (unit : Nat) (d : Value) : Except Error (Binary .double) := do
  return .ofInt (((← d.toCount).val + unit - 1) / unit)

variable [Elementary]

/-- The loss of `m` for a sample that is the fraction `ratio` of its population. -/
def amplifiedLoss (m : Measurement) (p : Precision) (unit : Nat) (ratio : Binary .double)
    (d : Value) : Except Error Value := do
  let records ← changedRecords unit d
  let one ← (← m.boundAt (.count unit)).toDouble
  let amplified := records * Elementary.ln1p (ratio * Elementary.expm1 one)
  let plain ← (← m.boundAt d).toDouble
  return .upward p (amplified.min plain)

/-- `m` on a sample from `population` records. -/
def amplify (m : Measurement) (population : Nat) : Except Error Measurement := do
  let some (_, sample) := m.inputDomain.sizedRecords?
    | throw (.badMeasurement (.unsizedInput m.inputDomain))
  if sample = 0 ∨ population < sample then
    throw (.badMeasurement (.sampleSize sample population))
  let .maxDivergence p := m.outputMeasure
    | throw (.badMeasurement (.amplifiedMeasure m.outputMeasure))
  let some unit := m.inputMetric.oneRecord?
    | throw (.badMeasurement (.amplifiedMetric m.inputMetric))
  return { m with privacy := m.amplifiedLoss p unit (Binary.ofNat sample / Binary.ofNat population) }

omit [Elementary] in
/-- `m` with its curve read at `delta`. -/
def fixDelta (m : Measurement) (delta : Binary .double) : Except Error Measurement := do
  let .smoothedMaxDivergence p := m.outputMeasure
    | throw (.badMeasurement (.noCurve m.outputMeasure))
  if !Curve.isProbability delta then throw (.badMeasurement (.delta delta))
  return { m with
    outputMeasure := .fixedSmoothedMaxDivergence p
    privacy := fun d => do
      let epsilon ← (← (← m.boundAt d).toCurve).epsilon delta
      return .tuple [.upward p epsilon, .upward p delta] }

end Measurement

end PrivateRelease
