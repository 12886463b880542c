import PrivateRelease.Host.Workspace
import PrivateRelease.Mechanism

/-!
# Programs

A program makes entities from values and combines them, nested in any way. It is run by the host, and
it denotes the mechanism that the library builds by the same steps from the converted values. The
host may refuse a step on its own account: a feature is off, a type cannot be chosen or has no
instance, a value cannot be marshalled, or the printed descriptors of two entities do not fit.
-/

namespace PrivateRelease

/-! ## Reading types -/

namespace Descriptor

def primitive? : Descriptor → Option Primitive
  | primitive p => some p
  | _ => none

def float? : Descriptor → Option Precision
  | primitive (.numeric (.float p)) => some p
  | _ => none

def integer? : Descriptor → Option IntegerType
  | primitive (.numeric (.integer k)) => some k
  | _ => none

/-- The precision of an interval of floats. -/
def interval? : Descriptor → Option Precision
  | generic "IntervalDomain" [d] => d.float?
  | _ => none

end Descriptor

/-- The metrics of a mean: a dataset metric, and a sensitivity of some precision. -/
def Metric.ofMean? (input output : Descriptor) : Option (Precision × Metric × Metric) :=
  match ofDescriptor? input, ofDescriptor? output with
  | some i, some (l1Sensitivity (.float p)) =>
    if i.isDataset then some (p, i, l1Sensitivity (.float p)) else none
  | some i, some (l2Sensitivity (.float p)) =>
    if i.isDataset then some (p, i, l2Sensitivity (.float p)) else none
  | _, _ => none

namespace Host

/-- Why nothing is built: the host refuses, or the library fails. -/
inductive Stop where
  | refused
  | failed (why : Error)

namespace Stop

variable {α : Type}

/-- A step of the host alone. -/
def accept (r : Except Failure α) : Except Stop α := r.mapError fun _ => .refused

/-- A step of the library. -/
def core (r : Except Error α) : Except Stop α := r.mapError .failed

/-- What the host insists on. -/
def require (b : Bool) : Except Stop Unit := if b then .ok () else .error .refused

def some? (x : Option α) : Except Stop α :=
  match x with
  | some a => .ok a
  | none => .error .refused

end Stop

open Stop

/-! ## Constructions -/

namespace Construction

variable [Elementary]

/-- The mechanism that a construction denotes. -/
def denote (features : Features) (hints : Hints) : Construction → Except Stop Mechanism
  | identity => do
    let p ← some? ((← accept (hints.require "T")).primitive?.filter (· ≠ .string))
    return .transformation (.identity p)
  | clamp lower upper => do
    let q ← some? (← accept (hints.resolve "T" lower.inferred)).numeric?
    let a ← accept (lower.toNumeric q)
    let b ← accept (upper.toNumeric q)
    return .transformation (← core (Transformation.clamp (.numeric q) a b))
  | boundedSum lower upper => do
    let p ← some? (← accept (hints.resolve "T" lower.inferred)).float?
    require (features.isEnabled Features.floatingPoint)
    let a ← accept (lower.toNumeric (.float p))
    let b ← accept (upper.toNumeric (.float p))
    return .transformation (← core (Transformation.boundedSum p a b))
  | boundedMean lower upper n => do
    let _ ← accept (Library.size "n" n)
    let t ← accept (hints.resolve "T" lower.inferred)
    let input ← accept (hints.resolve "MI" (.ok Metric.symmetricDistance.descriptor))
    let output ← accept (hints.resolve "MO" (.ok (.generic "L1Sensitivity" [t])))
    let (p, input, output) ← some? (Metric.ofMean? input output)
    require (features.isEnabled Features.floatingPoint)
    let a ← accept (lower.toNumeric (.float p))
    let b ← accept (upper.toNumeric (.float p))
    return .transformation (← core (Transformation.boundedMean p a b n input output))
  | count => do
    let p ← some? (← accept (hints.require "TIA")).primitive?
    return .transformation (.count p)
  | laplace scale => do
    let p ← some? (← accept (hints.resolve "T" scale.inferred)).float?
    require (features.isEnabled Features.floatingPoint)
    let x ← accept (scale.toNumeric (.float p))
    return .measurement (← core (Measurement.laplace p x))
  | gaussian scale => do
    let p ← some? (← accept (hints.resolve "T" scale.inferred)).float?
    require (features.isEnabled Features.floatingPoint)
    let x ← accept (scale.toNumeric (.float p))
    return .measurement (← core (Measurement.gaussian p x))
  | geometric scale => do
    let k ← some? (← accept (hints.resolve "T" (.ok (.integer .i32)))).integer?
    return .measurement (← core (Measurement.geometric k scale))

end Construction

/-! ## Combinations -/

/-- A transformation, then a transformation or a measurement, if what is printed of them fits. -/
def chained : Mechanism → Mechanism → Except Stop Mechanism
  | .transformation first, .transformation second => do
    require (first.outputDomain.toText = second.inputDomain.toText)
    require (first.outputMetric.toText = second.inputMetric.toText)
    return .transformation (← core (second.chain first))
  | .transformation first, .measurement second => do
    require (first.outputDomain.toText = second.inputDomain.toText)
    require (first.outputMetric.toText = second.inputMetric.toText)
    return .measurement (← core (second.chain first))
  | .measurement _, _ => .error .refused

/-- Whether all measurements print the inputs and the measure of the first. -/
def agree : List Measurement → Bool
  | [] => true
  | first :: rest => rest.all fun m =>
    first.inputDomain.toText = m.inputDomain.toText ∧
      first.inputMetric.toText = m.inputMetric.toText ∧
      first.outputMeasure.toText = m.outputMeasure.toText

/-- The composition rule of a policy. -/
def CompositionPolicy.rule : CompositionPolicy → Except Error CompositionRule
  | additive => .ok .additive
  | advanced deltaPrime => CompositionRule.ofDeltaPrime (Binary.convert deltaPrime)

variable [Elementary]

/-- All measurements on the same input, in order. -/
def composed (ms : List Measurement) (policy : CompositionPolicy) : Except Stop Mechanism := do
  require (agree ms)
  let rule ← core policy.rule
  return .measurement (← core (Measurement.compose rule ms))

/-- The amplified measurement, if the types given describe the measurement. -/
def amplifiedAs (m : Measurement) (population : Nat) (records measure : Descriptor) :
    Except Error Measurement := do
  let some (domain, _) := m.inputDomain.sizedRecords?
    | throw (.badMeasurement (.unsizedInput m.inputDomain))
  Boundary.Entry.expectDescriptor "DIA" records domain.descriptor
  Boundary.Entry.expectDescriptor "MO" measure m.outputMeasure.descriptor
  m.amplify population

/-- The measurement on a sample from a population, for an exported pair of types. -/
def amplified (features : Features) (m : Measurement) (population : Nat)
    (records measure : TypeHint) : Except Stop Mechanism := do
  let _ ← accept (Library.size "population_size" population)
  let records ← accept records.toDescriptor
  let measure ← accept measure.toDescriptor
  let _ ← some? (records.interval?.filter fun p => measure = (Measure.maxDivergence p).descriptor)
  require (features.isEnabled Features.contrib)
  return .measurement (← core (amplifiedAs m population records measure))

omit [Elementary] in
/-- The measurement with its curve read at a delta of the precision of its losses. -/
def fixed (m : Measurement) (delta : Binary .double) : Except Stop Mechanism :=
  match m.outputMeasure with
  | .smoothedMaxDivergence p => do
    let delta : Binary p := Binary.convert delta
    return .measurement (← core (m.fixDelta (Binary.convert delta)))
  | _ => .error .refused

def asMeasurement : Mechanism → Except Stop Measurement
  | .measurement m => .ok m
  | .transformation _ => .error .refused

/-! ## Programs -/

/-- A program. Every step may use a library of its own. -/
inductive Program where
  | make (l : Library) (c : Construction) (hints : Hints)
  | chain (l : Library) (first second : Program)
  | compose (l : Library) (parts : List Program) (policy : CompositionPolicy)
  | amplify (l : Library) (part : Program) (population : Nat) (records measure : TypeHint)
  | fixDelta (l : Library) (part : Program) (delta : Binary .double)

/-- The operation as an action, which does not hand its inputs back. -/
def Consuming.toAction {ι α : Type} (c : Consuming ι α) : Action α := fun l =>
  match c l with
  | (.ok x, l) => (.ok x, l)
  | (.error r, l) => (.error r.failure, l)

namespace Program

mutual

/-- Makes the entity of a program, step by step. -/
def run : Program → Action AnyEntity
  | make l c hints => c.run l hints
  | chain l first second => do
    let first ← run first
    let second ← run second
    (l.chain first second).toAction
  | compose l parts policy => do
    let parts ← runAll parts
    return .measurement (← (l.compose parts policy).toAction)
  | amplify l part population records measure => do
    let part ← Action.ofExcept (← run part).toMeasurement
    return .measurement (← (l.amplify part population records measure).toAction)
  | fixDelta l part delta => do
    let part ← Action.ofExcept (← run part).toMeasurement
    return .measurement (← (l.fixDelta part delta).toAction)

/-- Makes the measurements of programs, in order. -/
def runAll : List Program → Action (List (Entity .measurement))
  | [] => return []
  | p :: ps => do
    let m ← Action.ofExcept (← run p).toMeasurement
    return m :: (← runAll ps)

end

mutual

/-- The mechanism that a program denotes. -/
def denote : Program → Except Stop Mechanism
  | make l c hints => c.denote l.features hints
  | chain _ first second => do
    let first ← denote first
    let second ← denote second
    chained first second
  | compose _ parts policy => do
    let parts ← denoteAll parts
    composed parts policy
  | amplify l part population records measure => do
    let part ← asMeasurement (← denote part)
    amplified l.features part population records measure
  | fixDelta _ part delta => do
    let part ← asMeasurement (← denote part)
    fixed part delta

def denoteAll : List Program → Except Stop (List Measurement)
  | [] => return []
  | p :: ps => do
    let m ← asMeasurement (← denote p)
    return m :: (← denoteAll ps)

end

end Program

end Host

end PrivateRelease
