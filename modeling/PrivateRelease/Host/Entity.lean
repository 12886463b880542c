import PrivateRelease.Host.Dispatch

/-!
# Entities

A transformation or a measurement as the host holds it: a handle, and the descriptors of its domains
and distances, which are read once. They decide how arguments are passed.
-/

namespace PrivateRelease.Host

open Boundary (EntityField)

inductive Role where
  | transformation
  | measurement
  deriving DecidableEq, Repr

namespace Role

def invoke : Role → Signature
  | transformation => .transformationInvoke
  | measurement => .measurementInvoke

def map : Role → Signature
  | transformation => .transformationMap
  | measurement => .measurementMap

def check : Role → Signature
  | transformation => .transformationCheck
  | measurement => .measurementCheck

def describe : Role → Signature
  | transformation => .transformationDescribe
  | measurement => .measurementDescribe

end Role

structure Descriptors where
  inputDomain : String
  outputDomain : String
  inputMetric : String
  /-- The metric of a transformation, the measure of a measurement. -/
  outputDistance : String
  inputCarrier : Descriptor
  inputDistance : Descriptor
  outputBound : Descriptor
  deriving DecidableEq

namespace Descriptors

def bindings (d : Descriptors) : Bindings :=
  [("TI", d.inputCarrier), ("QI", d.inputDistance), ("QO", d.outputBound)]

def smoothed : String := "SmoothedMaxDivergence"

/-- Whether losses are privacy curves. -/
def isCurveValued (d : Descriptors) : Bool :=
  smoothed.toList.isPrefixOf d.outputDistance.toList

/-- Whether input distances are counts of records, or unsigned. -/
def hasCounts (metric : Descriptor) (distance : Descriptor) : Bool :=
  (Metric.ofDescriptor? metric).any Metric.isDataset
    || distance == .integer .u32 || distance == .integer .u64

end Descriptors

structure Entity (r : Role) where
  handle : Handle
  descriptors : Descriptors
  nonnegativeInput : Bool

/-- A type that the native side reports. -/
def readType (text : String) : Except Failure Descriptor :=
  (Descriptor.parse text).mapError fun why => .unsupported (.unreadableType why)

def isNegative : Value → Bool
  | .int n => n.val < 0
  | .float x => Binary.lt x 0
  | _ => false

/-- A native privacy curve. -/
structure Curve where
  handle : Handle

variable [Elementary]

namespace Entity

def describe (r : Role) (h : Handle) (f : EntityField) : Action String := do
  let args := [.handle h, .value (.int (.clamp .i64 f.number))]
  let returned ← r.describe.call .none [] args
  Action.ofExcept (returned.toText "a descriptor")

def describeType (r : Role) (h : Handle) (f : EntityField) : Action Descriptor := do
  Action.ofExcept (readType (← describe r h f))

def readDescriptors (r : Role) (h : Handle) : Action Descriptors := do
  let inputDomain ← describe r h .inputDomain
  let outputDomain ← describe r h .outputDomain
  let inputMetric ← describe r h .inputMetric
  let outputDistance ← describe r h .outputDistance
  let inputCarrier ← describeType r h .inputCarrier
  let inputDistance ← describeType r h .inputDistanceType
  let outputBound ← describeType r h .outputBoundType
  return ⟨inputDomain, outputDomain, inputMetric, outputDistance, inputCarrier, inputDistance,
    outputBound⟩

/-- The entity of a handle. The handle is given back if it cannot be described. -/
def ofHandle (r : Role) (h : Handle) : Action (Entity r) :=
  let read : Action (Entity r) := do
    let d ← readDescriptors r h
    let metric ← Action.ofExcept (readType d.inputMetric)
    return ⟨h, d, Descriptors.hasCounts metric d.inputDistance⟩
  read.orElseRun h.drop

variable {r : Role}

def adopt (e : Entity r) (children : List Handle) : Entity r :=
  { e with handle := e.handle.adopt children }

/-- Refuses a distance below zero before it is marshalled. -/
def expectDistance (e : Entity r) (d : Value) : Except Failure Unit :=
  if e.nonnegativeInput && isNegative d then
    .error (.outOfDomain (.negative e.descriptors.inputMetric d))
  else .ok ()

def invoke (e : Entity r) (v : Value) : Action Value := do
  let returned ← r.invoke.call .none e.descriptors.bindings [.handle e.handle, .value v]
  Action.ofExcept returned.toValue

/-- The bound at an input distance. -/
def boundAt (e : Entity r) (d : Value) : Action Value := do
  Action.ofExcept (e.expectDistance d)
  let returned ← r.map.call .none e.descriptors.bindings [.handle e.handle, .value d]
  Action.ofExcept returned.toValue

def check (e : Entity r) (dIn dOut : Value) : Action Bool := do
  Action.ofExcept (e.expectDistance dIn)
  let args := [.handle e.handle, .value dIn, .value dOut]
  let returned ← r.check.call .none e.descriptors.bindings args
  Action.ofExcept (returned.toBool "a verdict")

/-- As `boundAt`, but a privacy curve has no host value. -/
def map : {r : Role} → Entity r → Value → Action Value
  | .transformation, t, d => t.boundAt d
  | .measurement, m, d => do
    if m.descriptors.isCurveValued then
      throw (.unsupported (.curveLoss m.descriptors.outputDistance))
    m.boundAt d

/-- The privacy curve at an input distance. -/
def mapCurve (m : Entity .measurement) (d : Value) : Action Curve := do
  unless m.descriptors.isCurveValued do
    throw (.unsupported (.noCurve m.descriptors.outputDistance))
  Action.ofExcept (m.expectDistance d)
  let args := [.handle m.handle, .value d]
  let returned ← Signature.measurementMapCurve.call .none m.descriptors.bindings args
  return ⟨← Action.ofExcept returned.toHandle⟩

/-- Gives back the entity and all it was made from. -/
def release (e : Entity r) : Action Nat := e.handle.release

end Entity

namespace Curve

/-- The least epsilon that holds with failure probability `delta`. -/
def epsilon (c : Curve) (delta : Binary .double) : Action (Binary .double) := do
  let returned ← Signature.curveEpsilon.call .none [] [.handle c.handle, .value (.float delta)]
  Action.ofExcept (returned.toDouble "an epsilon")

def toText (c : Curve) : Action String := do
  let returned ← Signature.objectText.call .none [] [.handle c.handle]
  Action.ofExcept (returned.toText "text")

end Curve

/-- An entity of either role. -/
inductive AnyEntity where
  | transformation (t : Entity .transformation)
  | measurement (m : Entity .measurement)

namespace AnyEntity

def handle : AnyEntity → Handle
  | transformation t => t.handle
  | measurement m => m.handle

def descriptors : AnyEntity → Descriptors
  | transformation t => t.descriptors
  | measurement m => m.descriptors

def invoke : AnyEntity → Value → Action Value
  | transformation t => t.invoke
  | measurement m => m.invoke

def map : AnyEntity → Value → Action Value
  | transformation t => t.map
  | measurement m => m.map

def check : AnyEntity → Value → Value → Action Bool
  | transformation t => t.check
  | measurement m => m.check

omit [Elementary] in
def toTransformation : AnyEntity → Except Failure (Entity .transformation)
  | transformation t => .ok t
  | measurement m => .error (.mismatch (.notTransformation m.descriptors.outputDistance))

omit [Elementary] in
def toMeasurement : AnyEntity → Except Failure (Entity .measurement)
  | measurement m => .ok m
  | transformation t => .error (.mismatch (.notMeasurement t.descriptors.outputDistance))

end AnyEntity

end PrivateRelease.Host
