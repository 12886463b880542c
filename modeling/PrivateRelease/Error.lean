import PrivateRelease.Descriptor.Reader
import PrivateRelease.Distance.Measure
import PrivateRelease.Distance.Metric
import PrivateRelease.Domain.Basic

/-!
# Errors

Why something could not be read, built, evaluated or compared, by kind. The message of an error
starts with its kind.
-/

namespace PrivateRelease

namespace Error

inductive Kind where
  | typeParse
  | notImplemented
  | domainMismatch
  | makeTransformation
  | makeMeasurement
  | failedFunction
  | failedMap
  | failedCast
  | invalidArgument
  deriving DecidableEq, Repr

def Kind.name : Kind → String
  | typeParse => "TypeParse"
  | notImplemented => "NotImplemented"
  | domainMismatch => "DomainMismatch"
  | makeTransformation => "MakeTransformation"
  | makeMeasurement => "MakeMeasurement"
  | failedFunction => "FailedFunction"
  | failedMap => "FailedMap"
  | failedCast => "FailedCast"
  | invalidArgument => "InvalidArgument"

def Kind.all : List Kind :=
  [typeParse, notImplemented, domainMismatch, makeTransformation, makeMeasurement, failedFunction,
    failedMap, failedCast, invalidArgument]

def Kind.ofName? (s : String) : Option Kind := all.find? fun k => k.name == s

def Kind.opening : Kind → String
  | typeParse => "Failed to parse type descriptor: "
  | notImplemented => "No instantiation for "
  | domainMismatch => "Domain mismatch: "
  | makeTransformation => "Unable to make transformation: "
  | makeMeasurement => "Unable to make measurement: "
  | failedFunction => "Failed function: "
  | failedMap => "Failed map: "
  | failedCast => "Failed cast: "
  | invalidArgument => "Invalid argument: "

/-- What there is no instance of. -/
inductive Missing where
  | metric (d : Descriptor)
  | measure (d : Descriptor)
  | entry (expected given : List Descriptor)
  | meanEntry (p : Precision) (given : Metric)
  | boxing (d : Descriptor)

def Missing.text : Missing → String
  | metric d => s!"metric {d}"
  | measure d => s!"measure {d}"
  | entry expected given =>
    s!"entry for {Descriptor.argsText expected} called with {Descriptor.argsText given}"
  | meanEntry p given => s!"bounded mean entry over {Descriptor.float p} called with {given}"
  | boxing d => s!"cannot box values of type {d}"

/-- Where two things that meet do not fit. -/
inductive Mismatch where
  | domains (output input : Domain)
  | metrics (output input : Metric)
  | composedDomain (index : Nat) (found expected : Domain)
  | composedMetric (index : Nat) (found expected : Metric)
  | composedMeasure (index : Nat) (found expected : Measure)
  | typeArgument (name : String) (given actual : Descriptor)

def Mismatch.text : Mismatch → String
  | domains output input => s!"output domain {output} does not match input domain {input}"
  | metrics output input => s!"output metric {output} does not match input metric {input}"
  | composedDomain i found expected =>
    s!"measurement {i} has input domain {found}, expected {expected}"
  | composedMetric i found expected =>
    s!"measurement {i} has input metric {found}, expected {expected}"
  | composedMeasure i found expected =>
    s!"measurement {i} has output measure {found}, expected {expected}"
  | typeArgument name given actual =>
    s!"{name} {given} does not match the measurement's {actual}"

inductive BadArgument where
  | boundTypes (lower upper : Descriptor)
  | boundOrder (q : Numeric) (lower upper : q.Carrier)
  | entityField (n : Nat)
  | compositionRule (n : Nat)
  | scalarCount (n : Nat)
  | componentCount (d : Descriptor) (expected given : Nat)

def BadArgument.text : BadArgument → String
  | boundTypes lower upper => s!"interval bounds must share a numeric type, got {lower} and {upper}"
  | boundOrder _ lower upper =>
    s!"lower bound {Numeric.toText lower} may not exceed upper bound {Numeric.toText upper}"
  | entityField n => s!"unknown entity field {n}"
  | compositionRule n => s!"unknown composition rule {n}"
  | scalarCount n => s!"scalar slices hold one value, got {n}"
  | componentCount d expected given => s!"{d} expects {expected} components, got {given}"

inductive BadTransformation where
  | bounds (p : Primitive) (lower upper : p.Carrier)
  | interval (why : BadArgument)
  | emptyDataset
  | inputMetric (m : Metric)
  | outputMetric (p : Precision) (m : Metric)

def BadTransformation.text : BadTransformation → String
  | bounds _ lower upper =>
    s!"lower bound {Primitive.toText lower} may not exceed upper bound {Primitive.toText upper}"
  | interval why => Kind.invalidArgument.opening ++ why.text
  | emptyDataset => "dataset size must be positive"
  | inputMetric m => s!"bounded mean requires a dataset input metric, got {m}"
  | outputMetric p m => s!"bounded mean over {Descriptor.float p} cannot produce {m}"

inductive BadMeasurement where
  | scale (x : Binary .double)
  | deltaPrime (x : Binary .double)
  | advancedMeasure (m : Measure)
  | nothingComposed
  | unsizedInput (d : Domain)
  | sampleSize (sample population : Nat)
  | amplifiedMeasure (m : Measure)
  | amplifiedMetric (m : Metric)
  | noCurve (m : Measure)
  | delta (x : Binary .double)

def BadMeasurement.text : BadMeasurement → String
  | scale x => s!"scale must be positive and finite, got {x.inSentence}"
  | deltaPrime x => s!"delta_prime must be in (0, 1), got {x.inSentence}"
  | advancedMeasure m => s!"advanced composition requires FixedSmoothedMaxDivergence, got {m}"
  | nothingComposed => "basic composition requires at least one measurement"
  | unsizedInput d => s!"amplification requires a sized dataset input, got {d}"
  | sampleSize sample population =>
    s!"sample size {sample} must be between 1 and the population size {population}"
  | amplifiedMeasure m => s!"amplification is only implemented for MaxDivergence, got {m}"
  | amplifiedMetric m => s!"amplification requires a dataset metric, got {m}"
  | noCurve m => s!"{m} does not expose a privacy curve"
  | delta x => s!"delta must be in (0, 1), got {x.inSentence}"

inductive BadInput where
  | notMember (type : Descriptor) (domain : Domain)
  | noiseScale (x : Binary .double)

def BadInput.text : BadInput → String
  | notMember type domain => s!"input {type} is not a member of {domain}"
  | noiseScale x => s!"noise scale must be positive and finite, got {x.inSentence}"

/-- The kinds of value that a reader of values can ask for. -/
inductive Wanted where
  | type (d : Descriptor)
  | numericScalar
  | curve
  | tuple

def Wanted.text : Wanted → String
  | type d => d.toText
  | numericScalar => "a numeric scalar"
  | curve => "a privacy curve"
  | tuple => "a tuple"

inductive BadCast where
  | wanted (what : Wanted) (found : Descriptor)
  | notFloat (d : Descriptor)
  | distanceType (m : Metric) (found : Descriptor)
  | incomparable (a b : Descriptor)
  | curveView

def BadCast.text : BadCast → String
  | wanted what found => s!"expected {what.text}, found {found}"
  | notFloat d => s!"distances of type {d} are not floating-point"
  | distanceType m found => s!"{m} distances are {m.distanceType}, got {found}"
  | incomparable a b => s!"cannot compare distance {a} with {b}"
  | curveView => "privacy curves have no slice view, evaluate them with core__curve_epsilon"

inductive BadDistance where
  | delta (x : Binary .double)
  | outOfRange (q : Numeric) (x : q.Carrier)
  | notNumeric (why : BadCast)
  | notPair (components : Nat)

def BadDistance.text : BadDistance → String
  | delta x => s!"delta must be in (0, 1), got {x.inSentence}"
  | outOfRange _ x =>
    s!"distance must be a non-negative finite number, got {Numeric.toText x}"
  | notNumeric why => Kind.failedCast.opening ++ why.text
  | notPair n => s!"expected an (epsilon, delta) pair, got {n} components"

end Error

open Error in
inductive Error where
  | unreadable (why : Descriptor.Unreadable)
  | missing (what : Missing)
  | mismatch (what : Mismatch)
  | badTransformation (why : BadTransformation)
  | badMeasurement (why : BadMeasurement)
  | badInput (why : BadInput)
  | badDistance (why : BadDistance)
  | badCast (why : BadCast)
  | badArgument (why : BadArgument)
  /-- An error stated by a function that the caller supplied. -/
  | stated (kind : Kind) (text : String)

namespace Error

def kind : Error → Kind
  | unreadable _ => .typeParse
  | missing _ => .notImplemented
  | mismatch _ => .domainMismatch
  | badTransformation _ => .makeTransformation
  | badMeasurement _ => .makeMeasurement
  | badInput _ => .failedFunction
  | badDistance _ => .failedMap
  | badCast _ => .failedCast
  | badArgument _ => .invalidArgument
  | stated kind _ => kind

/-- The message without its opening. -/
def text : Error → String
  | unreadable why => why.message
  | missing what => what.text
  | mismatch what => what.text
  | badTransformation why => why.text
  | badMeasurement why => why.text
  | badInput why => why.text
  | badDistance why => why.text
  | badCast why => why.text
  | badArgument why => why.text
  | stated _ text => text

def message (e : Error) : String := e.kind.opening ++ e.text

end Error

end PrivateRelease
