import PrivateRelease.Mechanism.Basic
import PrivateRelease.Mechanism.Noise

/-!
# Noisy releases of one number

Laplace and two-sided geometric noise give pure privacy with loss `d / scale` at distance `d`.
Gaussian noise gives a curve: distance `d` costs `rho = (d / scale)² / 2` of zero-concentrated
privacy, which is `rho + 2 √(rho · ln (1 / delta))` of epsilon at `delta`.
-/

namespace PrivateRelease

namespace Measurement

variable [Elementary]

def checkScale (scale : Binary .double) : Except Error Unit :=
  if Noise.isScale scale then .ok () else .error (.badMeasurement (.scale scale))

/-- Adds noise to a float, in double precision. -/
def addNoise (p : Precision) (noise : Sampling (Binary .double)) (v : Value) : Sampling Value := do
  let x ← Sampling.ofExcept (v.toScalar (.numeric (.float p)))
  let x : Binary .double := Binary.convert x
  return .float p (Binary.convert (x + (← noise)))

def laplace (p : Precision) (scale : Binary p) : Except Error Measurement := do
  let scale : Binary .double := scale.convert
  checkScale scale
  return {
    inputDomain := .all (.float p)
    outputDomain := .all (.float p)
    function := addNoise p (Noise.laplace scale)
    inputMetric := .l1Sensitivity (.float p)
    outputMeasure := .maxDivergence p
    privacy := fun d => do return .upward p ((← d.toDouble) / scale) }

/-- The epsilon at `delta` of zero-concentrated privacy `rho`. -/
def concentratedEpsilon (rho delta : Binary .double) : Binary .double :=
  if rho.isZero then 0 else rho + 2 * (rho * Elementary.ln (1 / delta)).sqrt

/-- The curve of zero-concentrated privacy `rho`, rounded up to precision `p`. -/
def concentratedCurve (p : Precision) (rho : Binary .double) : Curve where
  carrier := .float p
  rule delta := .ok (Binary.convert ((concentratedEpsilon rho delta).roundUp p))
  mark := none

def gaussian (p : Precision) (scale : Binary p) : Except Error Measurement := do
  let scale : Binary .double := scale.convert
  checkScale scale
  return {
    inputDomain := .all (.float p)
    outputDomain := .all (.float p)
    function := addNoise p (Noise.gaussian scale)
    inputMetric := .l2Sensitivity (.float p)
    outputMeasure := .smoothedMaxDivergence p
    privacy := fun d => do
      let ratio := (← d.toDouble) / scale
      return .curve (concentratedCurve p (ratio * ratio / 2)) }

def geometric (k : IntegerType) (scale : Binary .double) : Except Error Measurement := do
  checkScale scale
  return {
    inputDomain := .all (.integer k)
    outputDomain := .all (.integer k)
    function := fun v => do
      let x ← Sampling.ofExcept (v.toScalar (.numeric (.integer k)))
      let n := Bounded.val x
      return .integer k (Bounded.clamp k (Noise.clampWide (n + (← Noise.geometric scale))))
    inputMetric := .absoluteDistance (.integer k)
    outputMeasure := .maxDivergence .double
    privacy := fun d => do return .float .double ((← d.toDouble) / scale) }

end Measurement

end PrivateRelease
