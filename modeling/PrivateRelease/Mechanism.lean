import PrivateRelease.Mechanism.Basic

/-!
# Mechanisms

A transformation or a measurement, where either will do. A transformation draws nothing.
-/

namespace PrivateRelease

inductive Mechanism where
  | transformation (t : Transformation)
  | measurement (m : Measurement)

namespace Mechanism

def inputDomain : Mechanism → Domain
  | transformation t => t.inputDomain
  | measurement m => m.inputDomain

def outputDomain : Mechanism → Domain
  | transformation t => t.outputDomain
  | measurement m => m.outputDomain

def inputMetric : Mechanism → Metric
  | transformation t => t.inputMetric
  | measurement m => m.inputMetric

/-- The text of the output metric or measure. -/
def outputDistance : Mechanism → String
  | transformation t => t.outputMetric.toText
  | measurement m => m.outputMeasure.toText

def toText : Mechanism → String
  | transformation t => t.toText
  | measurement m => m.toText

/-- The function at any value. -/
def apply (v : Value) : Mechanism → Sampling Value
  | transformation t => Sampling.ofExcept (t.function v)
  | measurement m => m.function v

/-- The function at a member of the input domain. -/
def invoke (v : Value) : Mechanism → Sampling Value
  | transformation t => Sampling.ofExcept (t.invoke v)
  | measurement m => m.invoke v

def boundAt (d : Value) : Mechanism → Except Error Value
  | transformation t => t.boundAt d
  | measurement m => m.boundAt d

def map (d : Value) : Mechanism → Except Error Value
  | transformation t => t.map d
  | measurement m => m.map d

def check (dIn dOut : Value) : Mechanism → Except Error Bool
  | transformation t => t.check dIn dOut
  | measurement m => m.check dIn dOut

/-- Applying checks no domain; at a member it does the same. -/
theorem invoke_of_member {m : Mechanism} {v : Value} (h : m.inputDomain.member v = true) :
    m.invoke v = m.apply v := by
  cases m with
  | transformation t =>
    have h : t.inputDomain.member v = true := h
    simp [invoke, apply, Transformation.invoke, checkMember, h, bind, Except.bind]
  | measurement m =>
    have h : m.inputDomain.member v = true := h
    simp only [invoke, apply, Measurement.invoke, checkMember, h, if_true]
    rfl

end Mechanism

end PrivateRelease
