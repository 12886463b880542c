import PrivateRelease.Host.Features

/-!
# Signatures

What the host knows about a native operation: its type parameters, how its arguments are passed and
of which shape they are, what it returns, and the features it needs.
-/

namespace PrivateRelease.Host

structure Parameter where
  name : String
  /-- A type with parameters; unused for what the host owns. -/
  shape : String
  passing : Passing
  deriving DecidableEq, Repr

namespace Parameter

def entity : Parameter := ⟨"entity", "", .handle⟩

def lower : Parameter := ⟨"lower", "T", .byReference⟩

def upper : Parameter := ⟨"upper", "T", .byReference⟩

def scale : Parameter := ⟨"scale", "T", .byReference⟩

def argument : Parameter := ⟨"arg", "TI", .object⟩

def inputDistance : Parameter := ⟨"d_in", "QI", .object⟩

def outputBound : Parameter := ⟨"d_out", "QO", .object⟩

def field : Parameter := ⟨"field", "u64", .byValue⟩

/-- What runs last comes first. -/
def chained : List Parameter := [⟨"outer", "", .handle⟩, ⟨"inner", "", .handle⟩]

end Parameter

structure Signature where
  module : String
  name : String
  typeParameters : List String
  /-- Whether there is an entry point for every choice of types. -/
  instantiated : Bool
  parameters : List Parameter
  returns : Outcome
  features : List String
  deriving DecidableEq, Repr

namespace Signature

def qualifiedName (s : Signature) : String := s.module ++ "::" ++ s.name

/-- An operation with an entry point for every choice of types. -/
def kernel (module name : String) (typeParameters : List String) (parameters : List Parameter)
    (returns : Outcome) (features : List String) : Signature :=
  ⟨module, name, typeParameters, true, parameters, returns, features⟩

/-- An operation with a single entry point, open to all. -/
def plain (module name : String) (parameters : List Parameter) (returns : Outcome) : Signature :=
  ⟨module, name, [], false, parameters, returns, []⟩

/-! ## Transformations -/

def identity : Signature := kernel "trans" "make_identity" ["T"] [] .transformation []

def clamp : Signature := kernel "trans" "make_clamp" ["T"] [.lower, .upper] .transformation []

def boundedSum : Signature :=
  kernel "trans" "make_bounded_sum" ["T"] [.lower, .upper] .transformation [Features.floatingPoint]

def boundedMean : Signature :=
  kernel "trans" "make_bounded_mean" ["MI", "MO"] [.lower, .upper, ⟨"n", "u64", .byValue⟩]
    .transformation [Features.floatingPoint]

def count : Signature := kernel "trans" "make_count" ["TIA"] [] .transformation []

/-! ## Measurements -/

def laplace : Signature :=
  kernel "meas" "make_base_laplace" ["T"] [.scale] .measurement [Features.floatingPoint]

def gaussian : Signature :=
  kernel "meas" "make_base_gaussian" ["T"] [.scale] .measurement [Features.floatingPoint]

def geometric : Signature :=
  kernel "meas" "make_base_geometric" ["T"] [⟨"scale", "f64", .byValue⟩] .measurement []

/-! ## Combinators -/

def chainTransformations : Signature :=
  plain "core" "make_chain_tt" Parameter.chained .transformation

def chainMeasurement : Signature := plain "core" "make_chain_mt" Parameter.chained .measurement

def compose : Signature :=
  plain "comb" "make_basic_composition"
    [⟨"measurements", "", .handles⟩, ⟨"rule", "u64", .byValue⟩, ⟨"rule_param", "f64", .byReference⟩]
    .measurement

def amplify : Signature :=
  kernel "comb" "make_population_amplification" ["DIA", "MO"]
    [.entity, ⟨"population_size", "u64", .byValue⟩] .measurement [Features.contrib]

def fixDelta : Signature :=
  kernel "comb" "make_fix_delta" ["MO"] [.entity, ⟨"delta", "T", .byReference⟩] .measurement []

/-! ## Operations on entities -/

def transformationInvoke : Signature :=
  plain "core" "transformation_invoke" [.entity, .argument] .value

def transformationMap : Signature :=
  plain "core" "transformation_map" [.entity, .inputDistance] .value

def transformationCheck : Signature :=
  plain "core" "transformation_check" [.entity, .inputDistance, .outputBound] .bool

def transformationDescribe : Signature :=
  plain "core" "transformation_describe" [.entity, .field] .text

def measurementInvoke : Signature :=
  plain "core" "measurement_invoke" [.entity, .argument] .value

def measurementMap : Signature :=
  plain "core" "measurement_map" [.entity, .inputDistance] .value

/-- The same entry point, for a loss that stays native. -/
def measurementMapCurve : Signature := { measurementMap with returns := .object }

def measurementCheck : Signature :=
  plain "core" "measurement_check" [.entity, .inputDistance, .outputBound] .bool

def measurementDescribe : Signature :=
  plain "core" "measurement_describe" [.entity, .field] .text

def curveEpsilon : Signature :=
  plain "core" "curve_epsilon" [⟨"curve", "", .handle⟩, ⟨"delta", "f64", .byReference⟩] .float

def objectText : Signature := plain "data" "to_string" [⟨"object", "", .handle⟩] .text

/-! ## The catalog -/

def catalog : List Signature :=
  [identity, clamp, boundedSum, boundedMean, count, laplace, gaussian, geometric,
    chainTransformations, chainMeasurement, compose, amplify, fixDelta, transformationInvoke,
    transformationMap, transformationCheck, transformationDescribe, measurementInvoke,
    measurementMap, measurementMapCurve, measurementCheck, measurementDescribe, curveEpsilon,
    objectText]

end Signature

end PrivateRelease.Host
