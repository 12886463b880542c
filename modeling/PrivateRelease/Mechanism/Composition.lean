import PrivateRelease.Mechanism.Basic
import PrivateRelease.Number.Elementary

/-!
# Composition

Several measurements of one input release all their outputs. A rule combines their losses: the
additive rule sums them, a curve splitting delta evenly; the advanced rule combines pairs at the
cost of a further failure probability and is never worse than the sum of the epsilons.
-/

namespace PrivateRelease

inductive CompositionRule where
  | additive
  | advanced (deltaPrime : Binary .double)

namespace CompositionRule

def name : CompositionRule → String
  | additive => "additive"
  | advanced _ => "advanced"

/-- The advanced rule, for a failure probability between `0` and `1`. -/
def ofDeltaPrime (deltaPrime : Binary .double) : Except Error CompositionRule :=
  if Curve.isProbability deltaPrime then .ok (advanced deltaPrime)
  else .error (.badMeasurement (.deltaPrime deltaPrime))

/-- Fails if the rule says nothing about the measure. -/
def supports (rule : CompositionRule) (m : Measure) : Except Error Unit :=
  match rule, m with
  | additive, _ => .ok ()
  | advanced _, .fixedSmoothedMaxDivergence _ => .ok ()
  | advanced _, m => .error (.badMeasurement (.advancedMeasure m))

/-- The epsilon and delta of a loss that is a pair. -/
def splitPair (loss : Value) : Except Error (Binary .double × Binary .double) := do
  match ← loss.toTuple with
  | [epsilon, delta] => return (← epsilon.toDouble, ← delta.toDouble)
  | items => throw (.badDistance (.notPair items.length))

def splitPairs (losses : List Value) :
    Except Error (List (Binary .double) × List (Binary .double)) := do
  return (← losses.mapM splitPair).unzip

/-- The curve whose epsilon at `delta` is the sum of the epsilons at an even share of `delta`. -/
def sumCurve (p : Precision) (curves : List Curve) : Curve where
  carrier := .float p
  rule delta := do
    return .sum (← curves.mapM fun c => c.epsilon (delta / Binary.ofNat curves.length))
  mark := none

def composeAdditive (m : Measure) (losses : List Value) : Except Error Value :=
  match m with
  | .maxDivergence p => do return .upward p (.sum (← losses.mapM Value.toDouble))
  | .fixedSmoothedMaxDivergence p => do
    let (epsilons, deltas) ← splitPairs losses
    return .tuple [.upward p (.sum epsilons), .upward p (.sum deltas)]
  | .smoothedMaxDivergence p => do return .curve (sumCurve p (← losses.mapM Value.toCurve))

variable [Elementary]

/-- The epsilon of advanced composition. -/
def advancedEpsilon (deltaPrime : Binary .double) (epsilons : List (Binary .double)) :
    Binary .double :=
  let squares := Binary.sum (epsilons.map fun e => e * e)
  let drift := Binary.sum (epsilons.map fun e => e * Elementary.expm1 e)
  (2 * Elementary.ln (1 / deltaPrime) * squares).sqrt + drift

def composeAdvanced (deltaPrime : Binary .double) (p : Precision) (losses : List Value) :
    Except Error Value := do
  let (epsilons, deltas) ← splitPairs losses
  let epsilon := Binary.min (.sum epsilons) (advancedEpsilon deltaPrime epsilons)
  return .tuple [.upward p epsilon, .upward p (.sum deltas + deltaPrime)]

/-- The loss of all together, from the loss of each. -/
def compose (rule : CompositionRule) (m : Measure) (losses : List Value) : Except Error Value :=
  match rule with
  | additive => composeAdditive m losses
  | advanced deltaPrime => do
    supports (advanced deltaPrime) m
    composeAdvanced deltaPrime m.precision losses

end CompositionRule

namespace Measurement

/-- Checks that the measurements from number `index` on agree with `first`. -/
def checkAgree (first : Measurement) (index : Nat) : List Measurement → Except Error Unit
  | [] => .ok ()
  | m :: ms =>
    if !m.inputDomain.same first.inputDomain then
      .error (.mismatch (.composedDomain index m.inputDomain first.inputDomain))
    else if m.inputMetric ≠ first.inputMetric then
      .error (.mismatch (.composedMetric index m.inputMetric first.inputMetric))
    else if m.outputMeasure ≠ first.outputMeasure then
      .error (.mismatch (.composedMeasure index m.outputMeasure first.outputMeasure))
    else checkAgree first (index + 1) ms

variable [Elementary]

/-- All measurements on the same input, their releases as a tuple in the given order. -/
def compose (rule : CompositionRule) : List Measurement → Except Error Measurement
  | [] => .error (.badMeasurement .nothingComposed)
  | first :: rest => do
    checkAgree first 1 rest
    rule.supports first.outputMeasure
    return {
      inputDomain := first.inputDomain
      outputDomain := .product ((first :: rest).map (·.outputDomain))
      function := fun v => do return .tuple (← (first :: rest).mapM fun m => m.function v)
      inputMetric := first.inputMetric
      outputMeasure := first.outputMeasure
      privacy := fun d => do
        rule.compose first.outputMeasure (← (first :: rest).mapM fun m => m.boundAt d) }

end Measurement

end PrivateRelease
