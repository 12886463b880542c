import PrivateRelease.Descriptor.Basic

/-!
# Metrics

How far apart two inputs are: in records for datasets, in a numeric type for single numbers.
-/

namespace PrivateRelease

inductive Metric where
  /-- The size of the symmetric difference of two datasets. -/
  | symmetricDistance
  /-- The count of changed records of two datasets of one size. -/
  | hammingDistance
  | absoluteDistance (q : Numeric)
  | l1Sensitivity (q : Numeric)
  | l2Sensitivity (q : Numeric)
  deriving DecidableEq, Repr

namespace Metric

def ofDescriptor? : Descriptor → Option Metric
  | .generic "SymmetricDistance" [] => some symmetricDistance
  | .generic "HammingDistance" [] => some hammingDistance
  | .generic "AbsoluteDistance" [.primitive (.numeric q)] => some (absoluteDistance q)
  | .generic "L1Sensitivity" [.primitive (.numeric q)] => some (l1Sensitivity q)
  | .generic "L2Sensitivity" [.primitive (.numeric q)] => some (l2Sensitivity q)
  | _ => none

def descriptor : Metric → Descriptor
  | symmetricDistance => .named "SymmetricDistance"
  | hammingDistance => .named "HammingDistance"
  | absoluteDistance q => .generic "AbsoluteDistance" [.numeric q]
  | l1Sensitivity q => .generic "L1Sensitivity" [.numeric q]
  | l2Sensitivity q => .generic "L2Sensitivity" [.numeric q]

def toText (m : Metric) : String := m.descriptor.toText

instance : ToString Metric := ⟨toText⟩

/-- The numeric type of distances. -/
def distance : Metric → Numeric
  | symmetricDistance => .integer .u32
  | hammingDistance => .integer .u32
  | absoluteDistance q => q
  | l1Sensitivity q => q
  | l2Sensitivity q => q

def distanceType (m : Metric) : Descriptor := .numeric m.distance

/-- Whether distances count records. -/
def isDataset : Metric → Bool
  | symmetricDistance => true
  | hammingDistance => true
  | _ => false

/-- The distance between two datasets of one size that differ in one record. -/
def oneRecord? : Metric → Option Nat
  | symmetricDistance => some 2
  | hammingDistance => some 1
  | _ => none

/-- The metric as a constructor applied to its type. -/
def title : Metric → String
  | symmetricDistance => "SymmetricDistance"
  | hammingDistance => "HammingDistance"
  | absoluteDistance q => s!"AbsoluteDistance({q.title})"
  | l1Sensitivity q => s!"L1Sensitivity({q.title})"
  | l2Sensitivity q => s!"L2Sensitivity({q.title})"

theorem ofDescriptor?_descriptor (m : Metric) : ofDescriptor? m.descriptor = some m := by
  cases m <;> rfl

end Metric

end PrivateRelease
