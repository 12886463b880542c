import PrivateRelease.Descriptor.Basic

/-!
# Privacy measures

How far apart two distributions of outputs are. Losses are floats of one precision: a single
epsilon, a curve of epsilons over delta, or a pair of epsilon and delta.
-/

namespace PrivateRelease

inductive Measure where
  /-- Pure privacy: the loss is an epsilon. -/
  | maxDivergence (p : Precision)
  /-- Approximate privacy: the loss is a curve. -/
  | smoothedMaxDivergence (p : Precision)
  /-- Approximate privacy at one delta: the loss is a pair. -/
  | fixedSmoothedMaxDivergence (p : Precision)
  deriving DecidableEq, Repr

namespace Measure

def ofDescriptor? : Descriptor → Option Measure
  | .generic "MaxDivergence" [.primitive (.numeric (.float p))] => some (maxDivergence p)
  | .generic "SmoothedMaxDivergence" [.primitive (.numeric (.float p))] =>
    some (smoothedMaxDivergence p)
  | .generic "FixedSmoothedMaxDivergence" [.primitive (.numeric (.float p))] =>
    some (fixedSmoothedMaxDivergence p)
  | _ => none

def descriptor : Measure → Descriptor
  | maxDivergence p => .generic "MaxDivergence" [.float p]
  | smoothedMaxDivergence p => .generic "SmoothedMaxDivergence" [.float p]
  | fixedSmoothedMaxDivergence p => .generic "FixedSmoothedMaxDivergence" [.float p]

def toText (m : Measure) : String := m.descriptor.toText

instance : ToString Measure := ⟨toText⟩

/-- The precision of losses. -/
def precision : Measure → Precision
  | maxDivergence p => p
  | smoothedMaxDivergence p => p
  | fixedSmoothedMaxDivergence p => p

def carrier (m : Measure) : Descriptor := .float m.precision

/-- The type of losses. -/
def distanceType : Measure → Descriptor
  | maxDivergence p => .float p
  | smoothedMaxDivergence p => .generic "SMDCurve" [.float p]
  | fixedSmoothedMaxDivergence p => .pair (.float p)

/-- The type of the bounds that losses are checked against. -/
def boundType : Measure → Descriptor
  | maxDivergence p => .float p
  | smoothedMaxDivergence p => .pair (.float p)
  | fixedSmoothedMaxDivergence p => .pair (.float p)

/-- The measure as a constructor applied to its type. -/
def title : Measure → String
  | maxDivergence p => s!"MaxDivergence({Numeric.title (.float p)})"
  | smoothedMaxDivergence p => s!"SmoothedMaxDivergence({Numeric.title (.float p)})"
  | fixedSmoothedMaxDivergence p => s!"FixedSmoothedMaxDivergence({Numeric.title (.float p)})"

theorem ofDescriptor?_descriptor (m : Measure) : ofDescriptor? m.descriptor = some m := by
  cases m <;> rfl

end Measure

end PrivateRelease
