import PrivateRelease.Boundary.Entry

/-!
# Exports

The table of entry points by symbol, one for every instance of every operation.
-/

namespace PrivateRelease.Boundary

def version : String := "0.2.0"

structure Export where
  module : String
  operation : String
  types : List Descriptor
  entry : Entry
  deriving DecidableEq

namespace Export

def symbol (e : Export) : String := Descriptor.symbol e.module e.operation e.types

def integers : List IntegerType := [.i32, .i64, .u32, .u64]

def precisions : List Precision := [.single, .double]

/-- Operations on objects and entities, which are not instances. -/
def plain : List Export :=
  [⟨"data", "slice_as_object", [], .sliceAsObject⟩,
    ⟨"data", "object_type", [], .objectType⟩,
    ⟨"data", "object_as_slice", [], .objectAsSlice⟩,
    ⟨"data", "to_string", [], .objectText⟩,
    ⟨"data", "slice_free", [], .sliceFree⟩,
    ⟨"data", "object_free", [], .objectFree⟩,
    ⟨"data", "str_free", [], .textFree⟩,
    ⟨"core", "transformation_invoke", [], .transformationInvoke⟩,
    ⟨"core", "transformation_map", [], .transformationMap⟩,
    ⟨"core", "transformation_check", [], .transformationCheck⟩,
    ⟨"core", "transformation_describe", [], .transformationDescribe⟩,
    ⟨"core", "transformation_free", [], .transformationFree⟩,
    ⟨"core", "measurement_invoke", [], .measurementInvoke⟩,
    ⟨"core", "measurement_map", [], .measurementMap⟩,
    ⟨"core", "measurement_check", [], .measurementCheck⟩,
    ⟨"core", "measurement_describe", [], .measurementDescribe⟩,
    ⟨"core", "measurement_free", [], .measurementFree⟩,
    ⟨"core", "make_chain_tt", [], .chainTransformations⟩,
    ⟨"core", "make_chain_mt", [], .chainMeasurement⟩,
    ⟨"core", "curve_epsilon", [], .curveEpsilon⟩,
    ⟨"comb", "make_basic_composition", [], .compose⟩]

/-- Kernels with one type argument. -/
def kernels : List Export :=
  (Primitive.bool :: Numeric.all.map .numeric).map
      (fun p => ⟨"trans", "make_identity", [.primitive p], .identity p⟩)
    ++ Numeric.all.map (fun q => ⟨"trans", "make_clamp", [.numeric q], .clamp q⟩)
    ++ precisions.map (fun p => ⟨"trans", "make_bounded_sum", [.float p], .boundedSum p⟩)
    ++ Primitive.all.map (fun p => ⟨"trans", "make_count", [.primitive p], .count p⟩)
    ++ precisions.map (fun p => ⟨"meas", "make_base_laplace", [.float p], .laplace p⟩)
    ++ precisions.map (fun p => ⟨"meas", "make_base_gaussian", [.float p], .gaussian p⟩)
    ++ integers.map (fun k => ⟨"meas", "make_base_geometric", [.integer k], .geometric k⟩)

/-- The metrics of exported means of precision `p`. -/
def meanMetrics (p : Precision) : List (Metric × Metric) :=
  [Metric.symmetricDistance, .hammingDistance].flatMap fun input =>
    [(input, .l1Sensitivity (.float p)), (input, .l2Sensitivity (.float p))]

/-- Means, amplification and fixed deltas of precision `p`. -/
def combinations (p : Precision) : List Export :=
  (meanMetrics p).map (fun (input, output) =>
      ⟨"trans", "make_bounded_mean", [input.descriptor, output.descriptor], .boundedMean p⟩)
    ++ [⟨"comb", "make_population_amplification",
          [.generic "IntervalDomain" [.float p], (Measure.maxDivergence p).descriptor], .amplify⟩,
        ⟨"comb", "make_fix_delta", [(Measure.smoothedMaxDivergence p).descriptor], .fixDelta p⟩]

def all : List Export := plain ++ kernels ++ precisions.flatMap combinations

/-- The entry point of a symbol. -/
def lookup (symbol : String) : Option Entry := (all.find? fun e => e.symbol == symbol).map entry

/-- As `lookup`, for a text that may be null and ends before its first nul character. -/
def lookupTerminated (symbol : Option String) : Option Entry :=
  symbol.bind fun s => lookup (String.ofList (s.toList.takeWhile (· ≠ '\x00')))

/-- Every symbol, in order. -/
def symbols : List String := (all.map symbol).mergeSort fun a b => a ≤ b

end Export

end PrivateRelease.Boundary
