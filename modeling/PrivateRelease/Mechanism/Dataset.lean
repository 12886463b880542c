import PrivateRelease.Mechanism.Basic

/-!
# Transformations of datasets

The elementary transformations, each for any carrier it makes sense for. Datasets are vectors; the
distance between two of them counts records.
-/

namespace PrivateRelease

namespace Transformation

open Error

def checkBounds (p : Primitive) (lower upper : p.Carrier) : Except Error Unit :=
  match Primitive.order lower upper with
  | some .lt => .ok ()
  | some .eq => .ok ()
  | _ => .error (.badTransformation (.bounds p lower upper))

/-- The domain between two bounds of a transformation. -/
def between (p : Primitive) (lower upper : p.Carrier) : Except Error Domain :=
  match Domain.ofValues (.scalar p lower) (.scalar p upper) with
  | .ok d => .ok d
  | .error why => .error (.badTransformation (.interval why))

/-- The distance in records is kept. -/
def keepsRecords (d : Value) : Except Error Value := do
  return .integer .u32 (← d.toCount)

/-- Passes vectors through unchanged. -/
def identity (p : Primitive) : Transformation where
  inputDomain := .vector (.all (.primitive p))
  outputDomain := .vector (.all (.primitive p))
  function v := .ok v
  inputMetric := .symmetricDistance
  outputMetric := .symmetricDistance
  stability := keepsRecords

/-- A value moved to the nearest bound if it is outside; what is incomparable stays. -/
def clampTo {p : Primitive} (lower upper x : p.Carrier) : p.Carrier :=
  match Primitive.order x lower with
  | some .lt => lower
  | _ =>
    match Primitive.order x upper with
    | some .gt => upper
    | _ => x

/-- Clamps every record between two bounds. -/
def clamp (p : Primitive) (lower upper : p.Carrier) : Except Error Transformation := do
  checkBounds p lower upper
  return {
    inputDomain := .vector (.all (.primitive p))
    outputDomain := .vector (← between p lower upper)
    function := fun v => do return .vector p ((← v.toVector p).map (clampTo lower upper))
    inputMetric := .symmetricDistance
    outputMetric := .symmetricDistance
    stability := keepsRecords }

/-- A record count as a double. -/
def records (d : Value) : Except Error (Binary .double) := do
  return .ofInt (← d.toCount).val

/-- The larger magnitude of two bounds: the most that one record moves a sum. -/
def magnitude {p : Precision} (lower upper : Binary p) : Binary .double :=
  Binary.max (Binary.abs lower.convert) (Binary.abs upper.convert)

/-- The sum of records between two bounds. -/
def boundedSum (p : Precision) (lower upper : Binary p) : Except Error Transformation := do
  checkBounds (.numeric (.float p)) lower upper
  return {
    inputDomain := .vector (← between (.numeric (.float p)) lower upper)
    outputDomain := .all (.float p)
    function := fun v => do
      return .float p (Binary.sum (← v.toVector (.numeric (.float p))))
    inputMetric := .symmetricDistance
    outputMetric := .l1Sensitivity (.float p)
    stability := fun d => do return .upward p ((← records d) * magnitude lower upper) }

/-- Whether a metric is a sensitivity of precision `p`. -/
def isSensitivity (p : Precision) : Metric → Bool
  | .l1Sensitivity q => q == .float p
  | .l2Sensitivity q => q == .float p
  | _ => false

/-- The mean of exactly `n` records between two bounds. Replacing one record, which is a symmetric
distance of two, moves it by at most the range over `n`. -/
def boundedMean (p : Precision) (lower upper : Binary p) (n : Nat)
    (inputMetric outputMetric : Metric) : Except Error Transformation := do
  checkBounds (.numeric (.float p)) lower upper
  if n = 0 then throw (.badTransformation .emptyDataset)
  let some oneRecord := inputMetric.oneRecord?
    | throw (.badTransformation (.inputMetric inputMetric))
  if !isSensitivity p outputMetric then
    throw (.badTransformation (.outputMetric p outputMetric))
  let range : Binary .double := upper.convert - lower.convert
  let size : Binary p := Binary.convert (.ofNat n : Binary .double)
  return {
    inputDomain := .sized (.vector (← between (.numeric (.float p)) lower upper)) n
    outputDomain := .all (.float p)
    function := fun v => do
      return .float p (Binary.sum (← v.toVector (.numeric (.float p))) / size)
    inputMetric := inputMetric
    outputMetric := outputMetric
    stability := fun d => do
      return .upward p ((← records d) * range / (Binary.ofNat oneRecord * Binary.ofNat n)) }

/-- The number of records, held at the largest count. -/
def count (p : Primitive) : Transformation where
  inputDomain := .vector (.all (.primitive p))
  outputDomain := .all (.integer .u32)
  function v := do return .count (← v.length (.primitive p))
  inputMetric := .symmetricDistance
  outputMetric := .absoluteDistance (.integer .u32)
  stability := keepsRecords

end Transformation

end PrivateRelease
