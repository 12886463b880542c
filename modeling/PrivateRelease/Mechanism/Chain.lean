import PrivateRelease.Mechanism.Basic

/-!
# Chains

The second member of a chain runs on the output of the first. Where they meet, domain and metric
must be equal; the value handed over is not checked again.
-/

namespace PrivateRelease

def checkBoundary (first : Transformation) (inputDomain : Domain) (inputMetric : Metric) :
    Except Error Unit :=
  if !first.outputDomain.same inputDomain then
    .error (.mismatch (.domains first.outputDomain inputDomain))
  else if first.outputMetric ≠ inputMetric then
    .error (.mismatch (.metrics first.outputMetric inputMetric))
  else .ok ()

namespace Transformation

/-- `first`, then `second`. -/
def chain (second first : Transformation) : Except Error Transformation := do
  checkBoundary first second.inputDomain second.inputMetric
  return {
    inputDomain := first.inputDomain
    outputDomain := second.outputDomain
    function := fun v => do second.function (← first.function v)
    inputMetric := first.inputMetric
    outputMetric := second.outputMetric
    stability := fun d => do second.boundAt (← first.boundAt d) }

end Transformation

namespace Measurement

/-- `first`, then the measurement `second`. -/
def chain (second : Measurement) (first : Transformation) : Except Error Measurement := do
  checkBoundary first second.inputDomain second.inputMetric
  return {
    inputDomain := first.inputDomain
    outputDomain := second.outputDomain
    function := fun v => do second.function (← Sampling.ofExcept (first.function v))
    inputMetric := first.inputMetric
    outputMeasure := second.outputMeasure
    privacy := fun d => do second.boundAt (← first.boundAt d) }

end Measurement

end PrivateRelease
