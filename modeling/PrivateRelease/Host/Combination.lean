import PrivateRelease.Host.Library

/-!
# Combining entities

Chains and combinators consume their inputs if they succeed: the result owns the handles of what it
was made from. If they fail the inputs are handed back as they were.
-/

namespace PrivateRelease.Host

/-- How the losses of composed measurements add up. -/
inductive CompositionPolicy where
  | additive
  | advanced (deltaPrime : Binary .double)
  deriving DecidableEq

namespace CompositionPolicy

/-- The number of the rule and its parameter. -/
def selector : CompositionPolicy → Bounded .i64 × Binary .double
  | additive => (.clamp .i64 0, 0)
  | advanced deltaPrime => (.clamp .i64 1, deltaPrime)

end CompositionPolicy

/-- Fails unless the output of the first is an input of the second. -/
def expectBoundary (first second : Descriptors) : Except Failure Unit :=
  if first.outputDomain ≠ second.inputDomain then
    .error (.mismatch (.domains first.outputDomain second.inputDomain))
  else if first.outputDistance ≠ second.inputMetric then
    .error (.mismatch (.metrics first.outputDistance second.inputMetric))
  else .ok ()

def expectSame (what first other : String) : Except Failure Unit :=
  if first = other then .ok () else .error (.mismatch (.composed what first other))

/-- Fails unless all measurements agree with the first. -/
def expectCompatible : List (Entity .measurement) → Except Failure Unit
  | [] => .ok ()
  | first :: rest => rest.forM fun other => do
    expectSame "input domain" first.descriptors.inputDomain other.descriptors.inputDomain
    expectSame "input metric" first.descriptors.inputMetric other.descriptors.inputMetric
    expectSame "output measure" first.descriptors.outputDistance other.descriptors.outputDistance

/-- The measure of a measurement with privacy curves, and its carrier. -/
def curveMeasure (m : Entity .measurement) : Except Failure (Descriptor × Descriptor) := do
  let text := m.descriptors.outputDistance
  unless m.descriptors.isCurveValued do
    throw (.unsupported (.notSmoothed Descriptors.smoothed text))
  match Descriptor.parse text with
  | .error why => throw (.unsupported (.unreadable why))
  | .ok measure =>
    match measure with
    | .generic _ [carrier] => return (measure, carrier)
    | _ => throw (.unsupported (.noCarrier measure))

namespace Library

variable [Elementary] (l : Library)

/-- Makes an entity that owns the given handles. -/
def makeFrom (r : Role) (s : Signature) (b : Bindings) (args : List Argument)
    (children : List Handle) : Action (Entity r) := do
  let e ← l.make r s b args
  return e.adopt children

def chainInto {r : Role} (s : Signature) (first : Entity .transformation) (second : Entity r) :
    Action (Entity r) := do
  Action.ofExcept (expectBoundary first.descriptors second.descriptors)
  let handles := [second.handle, first.handle]
  l.makeFrom r s [] (handles.map .handle) handles

/-- The second transformation after the first. -/
def chainTransformations (first second : Entity .transformation) :
    Consuming (Entity .transformation × Entity .transformation) (Entity .transformation) :=
  .ofAction (first, second) (l.chainInto .chainTransformations first second)

/-- The measurement after the transformation. -/
def chainMeasurement (first : Entity .transformation) (second : Entity .measurement) :
    Consuming (Entity .transformation × Entity .measurement) (Entity .measurement) :=
  .ofAction (first, second) (l.chainInto .chainMeasurement first second)

/-- The second entity after the first. Nothing can follow a measurement. -/
def chain (first second : AnyEntity) : Consuming (AnyEntity × AnyEntity) AnyEntity :=
  match first, second with
  | .measurement m, second =>
    .ofAction (.measurement m, second)
      (throw (.mismatch (.afterMeasurement m.descriptors.outputDistance)))
  | .transformation t, .transformation u =>
    .transformation <$> (l.chainTransformations t u).mapInputs
      fun (t, u) => (.transformation t, .transformation u)
  | .transformation t, .measurement m =>
    .measurement <$> (l.chainMeasurement t m).mapInputs
      fun (t, m) => (.transformation t, .measurement m)

/-- All measurements on the same input. -/
def compose (ms : List (Entity .measurement)) (policy : CompositionPolicy) :
    Consuming (List (Entity .measurement)) (Entity .measurement) :=
  .ofAction ms do
    Action.ofExcept (expectCompatible ms)
    let (rule, parameter) := policy.selector
    let handles := ms.map Entity.handle
    l.makeFrom .measurement .compose []
      [.handles handles, .value (.int rule), .value (.float parameter)] handles

/-- The measurement on a sample of a population. `records` is the domain of the records and
`measure` the measurement's measure. -/
def amplify (m : Entity .measurement) (population : Nat) (records measure : TypeHint) :
    Consuming (Entity .measurement) (Entity .measurement) :=
  .ofAction m do
    let n ← Action.ofExcept (size "population_size" population)
    let records ← Action.ofExcept records.toDescriptor
    let measure ← Action.ofExcept measure.toDescriptor
    l.makeFrom .measurement .amplify [("DIA", records), ("MO", measure)]
      [.handle m.handle, .value (.int n)] [m.handle]

/-- The measurement with its privacy curve read at one delta. -/
def fixDelta (m : Entity .measurement) (delta : Binary .double) :
    Consuming (Entity .measurement) (Entity .measurement) :=
  .ofAction m do
    let (measure, carrier) ← Action.ofExcept (curveMeasure m)
    l.makeFrom .measurement .fixDelta [("MO", measure), ("T", carrier)]
      [.handle m.handle, .value (.float delta)] [m.handle]

end Library

end PrivateRelease.Host
