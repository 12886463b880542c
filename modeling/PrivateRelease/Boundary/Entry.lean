import PrivateRelease.Boundary.Argument
import PrivateRelease.Boundary.Object
import PrivateRelease.Mechanism.Amplification
import PrivateRelease.Mechanism.Chain
import PrivateRelease.Mechanism.Composition
import PrivateRelease.Mechanism.Dataset
import PrivateRelease.Mechanism.Release

/-!
# Entry points

The operations that can be called through the boundary. Each reads its type arguments first, then
counts its arguments, then reads them in order.
-/

namespace PrivateRelease.Boundary

/-- What can be asked about a transformation or a measurement. -/
inductive EntityField where
  | inputDomain
  | outputDomain
  | inputMetric
  | outputDistance
  | inputCarrier
  | inputDistanceType
  | outputBoundType
  deriving DecidableEq, Repr

namespace EntityField

def all : List EntityField :=
  [inputDomain, outputDomain, inputMetric, outputDistance, inputCarrier, inputDistanceType,
    outputBoundType]

def name : EntityField → String
  | inputDomain => "InputDomain"
  | outputDomain => "OutputDomain"
  | inputMetric => "InputMetric"
  | outputDistance => "OutputDistance"
  | inputCarrier => "InputCarrier"
  | inputDistanceType => "InputDistanceType"
  | outputBoundType => "OutputBoundType"

def number : EntityField → Nat
  | inputDomain => 0
  | outputDomain => 1
  | inputMetric => 2
  | outputDistance => 3
  | inputCarrier => 4
  | inputDistanceType => 5
  | outputBoundType => 6

def ofNumber (n : Nat) : Except Error EntityField :=
  match all.find? fun f => f.number = n with
  | some f => .ok f
  | none => .error (.badArgument (.entityField n))

def ofTransformation (t : Transformation) : EntityField → String
  | inputDomain => t.inputDomain.toText
  | outputDomain => t.outputDomain.toText
  | inputMetric => t.inputMetric.toText
  | outputDistance => t.outputMetric.toText
  | inputCarrier => t.inputDomain.carrier.toText
  | inputDistanceType => t.inputMetric.distanceType.toText
  | outputBoundType => t.outputMetric.distanceType.toText

def ofMeasurement (m : Measurement) : EntityField → String
  | inputDomain => m.inputDomain.toText
  | outputDomain => m.outputDomain.toText
  | inputMetric => m.inputMetric.toText
  | outputDistance => m.outputMeasure.toText
  | inputCarrier => m.inputDomain.carrier.toText
  | inputDistanceType => m.inputMetric.distanceType.toText
  | outputBoundType => m.outputMeasure.boundType.toText

end EntityField

inductive Entry where
  | sliceAsObject
  | objectType
  | objectAsSlice
  | objectText
  | sliceFree
  | objectFree
  | textFree
  | transformationInvoke
  | transformationMap
  | transformationCheck
  | transformationDescribe
  | transformationFree
  | measurementInvoke
  | measurementMap
  | measurementCheck
  | measurementDescribe
  | measurementFree
  | chainTransformations
  | chainMeasurement
  | curveEpsilon
  | identity (p : Primitive)
  | clamp (q : Numeric)
  | boundedSum (p : Precision)
  | boundedMean (p : Precision)
  | count (p : Primitive)
  | laplace (p : Precision)
  | gaussian (p : Precision)
  | geometric (k : IntegerType)
  | compose
  | amplify
  | fixDelta (p : Precision)
  deriving DecidableEq, Repr

namespace Entry

/-- The metrics of a mean of precision `p`. -/
def meanMetrics (p : Precision) (types : List Descriptor) : Except CallError (Metric × Metric) :=
  match types with
  | [input, output] => do
    let input ← (Metric.ofDescriptor input).mapError .failed
    let output ← (Metric.ofDescriptor output).mapError .failed
    if Transformation.isSensitivity p output then return (input, output)
    throw (.failed (.missing (.meanEntry p output)))
  | _ => .error (.typeArgumentCount 2 types.length)

/-- Fails unless a type argument describes the measurement. -/
def expectDescriptor (name : String) (given actual : Descriptor) : Except Error Unit :=
  if given = actual then .ok () else .error (.mismatch (.typeArgument name given actual))

/-- The measurements that a slice refers to. -/
def measurements (m : Memory) : Except CallError (List Measurement) := do
  (← m.itemsOf "measurements" m.references?).mapM fun
    | some r => (Payload.reference r).toMeasurement "measurement"
    | none => .error (.nullPointer "measurement")

/-- The composition rule of a number, with its parameter if it has one. -/
def compositionRule (n : Nat) (parameter : Payload) : Except CallError CompositionRule :=
  match n with
  | 0 => .ok .additive
  | 1 => do
    let deltaPrime ← parameter.toSlot (.numeric (.float .double)) "delta_prime"
    (CompositionRule.ofDeltaPrime deltaPrime).mapError .failed
  | n => .error (.failed (.badArgument (.compositionRule n)))

def float (p : Precision) : Primitive := .numeric (.float p)

variable [Elementary]

/-- What the entry does with its type arguments and arguments. -/
def body (entry : Entry) (blob : Blob) (args : Arguments) : Call Payload :=
  match entry with
  | sliceAsObject => do
    let types ← Call.ofExcept (blob.types 1)
    let slice ← Call.ofExcept (do (← args.one).toSlice "slice")
    Call.give (.object (← Call.ofExcept (slice.toValue (types.headD default))))
  | objectType => do
    let v ← Call.ofExcept (do (← args.one).toObject "object")
    Call.giveText v.type.toText
  | objectAsSlice => do
    let v ← Call.ofExcept (do (← args.one).toObject "object")
    Call.give (.view (← Call.ofCore (Memory.ofValue v)))
  | objectText => do
    let v ← Call.ofExcept (do (← args.one).toObject "object")
    Call.giveText v.toText
  | sliceFree => do
    match ← Call.ofExcept (do (← args.one).refer "slice") with
    | .view _ => Call.reclaim
    | _ => throw (.misread "slice")
  | objectFree => do
    let _ ← Call.ofExcept (do (← args.one).toObject "object")
    Call.reclaim
  | textFree => do
    match ← Call.ofExcept (do (← args.one).refer "string") with
    | .text _ => Call.reclaim
    | _ => throw (.misread "string")
  | transformationInvoke => do
    let (t, arg) ← Call.ofExcept args.two
    let t ← Call.ofExcept (t.toTransformation "transformation")
    let arg ← Call.ofExcept (arg.toObject "arg")
    Call.give (.object (← Call.ofCore (t.invoke arg)))
  | transformationMap => do
    let (t, d) ← Call.ofExcept args.two
    let t ← Call.ofExcept (t.toTransformation "transformation")
    let d ← Call.ofExcept (d.toObject "d_in")
    Call.give (.object (← Call.ofCore (t.map d)))
  | transformationCheck => do
    let (t, dIn, dOut) ← Call.ofExcept args.three
    let t ← Call.ofExcept (t.toTransformation "transformation")
    let dIn ← Call.ofExcept (dIn.toObject "d_in")
    let dOut ← Call.ofExcept (dOut.toObject "d_out")
    return .bool (← Call.ofCore (t.check dIn dOut))
  | transformationDescribe => do
    let (t, field) ← Call.ofExcept args.two
    let t ← Call.ofExcept (t.toTransformation "transformation")
    let field ← Call.ofCore (EntityField.ofNumber field.toUnsigned)
    Call.giveText (field.ofTransformation t)
  | transformationFree => do
    let _ ← Call.ofExcept (do (← args.one).toTransformation "transformation")
    Call.reclaim
  | measurementInvoke => do
    let (m, arg) ← Call.ofExcept args.two
    let m ← Call.ofExcept (m.toMeasurement "measurement")
    let arg ← Call.ofExcept (arg.toObject "arg")
    Call.give (.object (← Call.sample (m.invoke arg)))
  | measurementMap => do
    let (m, d) ← Call.ofExcept args.two
    let m ← Call.ofExcept (m.toMeasurement "measurement")
    let d ← Call.ofExcept (d.toObject "d_in")
    Call.give (.object (← Call.ofCore (m.map d)))
  | measurementCheck => do
    let (m, dIn, dOut) ← Call.ofExcept args.three
    let m ← Call.ofExcept (m.toMeasurement "measurement")
    let dIn ← Call.ofExcept (dIn.toObject "d_in")
    let dOut ← Call.ofExcept (dOut.toObject "d_out")
    return .bool (← Call.ofCore (m.check dIn dOut))
  | measurementDescribe => do
    let (m, field) ← Call.ofExcept args.two
    let m ← Call.ofExcept (m.toMeasurement "measurement")
    let field ← Call.ofCore (EntityField.ofNumber field.toUnsigned)
    Call.giveText (field.ofMeasurement m)
  | measurementFree => do
    let _ ← Call.ofExcept (do (← args.one).toMeasurement "measurement")
    Call.reclaim
  | chainTransformations => do
    let (second, first) ← Call.ofExcept args.two
    let second ← Call.ofExcept (second.toTransformation "transformation1")
    let first ← Call.ofExcept (first.toTransformation "transformation0")
    Call.give (.transformation (← Call.ofCore (second.chain first)))
  | chainMeasurement => do
    let (second, first) ← Call.ofExcept args.two
    let second ← Call.ofExcept (second.toMeasurement "measurement1")
    let first ← Call.ofExcept (first.toTransformation "transformation0")
    Call.give (.measurement (← Call.ofCore (second.chain first)))
  | curveEpsilon => do
    let (v, delta) ← Call.ofExcept args.two
    let v ← Call.ofExcept (v.toObject "curve")
    let delta ← Call.ofExcept (delta.toSlot (float .double) "delta")
    return .double (← Call.ofCore (do (← v.toCurve).epsilon delta))
  | identity p => do
    Call.ofExcept (blob.expect [.primitive p])
    Call.ofExcept args.none
    Call.give (.transformation (Transformation.identity p))
  | clamp q => do
    Call.ofExcept (blob.expect [.numeric q])
    let (lower, upper) ← Call.ofExcept args.two
    let lower ← Call.ofExcept (lower.toSlot (.numeric q) "lower")
    let upper ← Call.ofExcept (upper.toSlot (.numeric q) "upper")
    Call.give (.transformation (← Call.ofCore (Transformation.clamp (.numeric q) lower upper)))
  | boundedSum p => do
    Call.ofExcept (blob.expect [.float p])
    let (lower, upper) ← Call.ofExcept args.two
    let lower ← Call.ofExcept (lower.toSlot (float p) "lower")
    let upper ← Call.ofExcept (upper.toSlot (float p) "upper")
    Call.give (.transformation (← Call.ofCore (Transformation.boundedSum p lower upper)))
  | boundedMean p => do
    let (inputMetric, outputMetric) ← Call.ofExcept (do meanMetrics p (← blob.types 2))
    let (lower, upper, n) ← Call.ofExcept args.three
    let lower ← Call.ofExcept (lower.toSlot (float p) "lower")
    let upper ← Call.ofExcept (upper.toSlot (float p) "upper")
    Call.give (.transformation (← Call.ofCore
      (Transformation.boundedMean p lower upper n.toUnsigned inputMetric outputMetric)))
  | count p => do
    Call.ofExcept (blob.expect [.primitive p])
    Call.ofExcept args.none
    Call.give (.transformation (Transformation.count p))
  | laplace p => do
    Call.ofExcept (blob.expect [.float p])
    let scale ← Call.ofExcept (do (← args.one).toSlot (float p) "scale")
    Call.give (.measurement (← Call.ofCore (Measurement.laplace p scale)))
  | gaussian p => do
    Call.ofExcept (blob.expect [.float p])
    let scale ← Call.ofExcept (do (← args.one).toSlot (float p) "scale")
    Call.give (.measurement (← Call.ofCore (Measurement.gaussian p scale)))
  | geometric k => do
    Call.ofExcept (blob.expect [.integer k])
    let scale ← Call.ofExcept args.one
    Call.give (.measurement (← Call.ofCore (Measurement.geometric k scale.toDouble)))
  | compose => do
    let (list, rule, parameter) ← Call.ofExcept args.three
    let ms ← Call.ofExcept (do measurements (← list.toSlice "measurements"))
    let rule ← Call.ofExcept (compositionRule rule.toUnsigned parameter)
    Call.give (.measurement (← Call.ofCore (Measurement.compose rule ms)))
  | amplify => do
    let types ← Call.ofExcept (blob.types 2)
    let (m, population) ← Call.ofExcept args.two
    let m ← Call.ofExcept (m.toMeasurement "measurement")
    let some (records, _) := m.inputDomain.sizedRecords?
      | throw (.failed (.badMeasurement (.unsizedInput m.inputDomain)))
    Call.ofCore (expectDescriptor "DIA" (types.headD default) records.descriptor)
    Call.ofCore (expectDescriptor "MO" (types.tail.headD default) m.outputMeasure.descriptor)
    Call.give (.measurement (← Call.ofCore (m.amplify population.toUnsigned)))
  | fixDelta p => do
    let types ← Call.ofExcept (blob.types 1)
    let (m, delta) ← Call.ofExcept args.two
    let m ← Call.ofExcept (m.toMeasurement "measurement")
    Call.ofCore (expectDescriptor "MO" (types.headD default) m.outputMeasure.descriptor)
    let delta ← Call.ofExcept (delta.toSlot (float p) "delta")
    Call.give (.measurement (← Call.ofCore (m.fixDelta (Binary.convert delta))))

/-- Calls the entry point. -/
def call (entry : Entry) (blob : Blob) (args : Arguments) : StateM Ledger Envelope :=
  Envelope.ofCall (entry.body blob args)

end Entry

end PrivateRelease.Boundary
