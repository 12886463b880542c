import PrivateRelease.Distance.Order
import PrivateRelease.Domain.Member
import PrivateRelease.Mechanism.Draw

/-!
# Transformations and measurements

A transformation is a function between domains with a bound on how far apart it takes inputs. A
measurement is a randomized function with a bound on the privacy it loses. The bounds are maps on
distances: `map` checks the type of the distance and that it is usable, `boundAt` only the latter.
-/

namespace PrivateRelease

structure Transformation where
  inputDomain : Domain
  outputDomain : Domain
  function : Value → Except Error Value
  inputMetric : Metric
  outputMetric : Metric
  stability : Value → Except Error Value

structure Measurement where
  inputDomain : Domain
  outputDomain : Domain
  function : Value → Sampling Value
  inputMetric : Metric
  outputMeasure : Measure
  privacy : Value → Except Error Value

def checkMember (d : Domain) (v : Value) : Except Error Unit :=
  if d.member v then .ok () else .error (.badInput (.notMember v.type d))

def checkDistanceType (m : Metric) (d : Value) : Except Error Unit :=
  if d.type = m.distanceType then .ok () else .error (.badCast (.distanceType m d.type))

namespace Transformation

/-- The function at a member of the input domain. -/
def invoke (t : Transformation) (v : Value) : Except Error Value := do
  checkMember t.inputDomain v
  t.function v

/-- The output distance at a usable input distance. -/
def boundAt (t : Transformation) (d : Value) : Except Error Value := do
  Distance.validate d
  t.stability d

def map (t : Transformation) (d : Value) : Except Error Value := do
  checkDistanceType t.inputMetric d
  t.boundAt d

/-- Whether inputs within `dIn` have outputs within `dOut`. -/
def check (t : Transformation) (dIn dOut : Value) : Except Error Bool := do
  Distance.le (← t.map dIn) dOut

def toText (t : Transformation) : String :=
  "Transformation \x7b input_domain: " ++ Text.quoted t.inputDomain.toText
    ++ ", output_domain: " ++ Text.quoted t.outputDomain.toText
    ++ ", input_metric: " ++ t.inputMetric.title
    ++ ", output_metric: " ++ t.outputMetric.title ++ " \x7d"

end Transformation

namespace Measurement

/-- A release for a member of the input domain. -/
def invoke (m : Measurement) (v : Value) : Sampling Value := do
  Sampling.ofExcept (checkMember m.inputDomain v)
  m.function v

/-- The privacy loss at a usable input distance. -/
def boundAt (m : Measurement) (d : Value) : Except Error Value := do
  Distance.validate d
  m.privacy d

def map (m : Measurement) (d : Value) : Except Error Value := do
  checkDistanceType m.inputMetric d
  m.boundAt d

/-- Whether inputs within `dIn` lose no more privacy than `dOut`. -/
def check (m : Measurement) (dIn dOut : Value) : Except Error Bool := do
  Distance.le (← m.map dIn) dOut

def toText (m : Measurement) : String :=
  "Measurement \x7b input_domain: " ++ Text.quoted m.inputDomain.toText
    ++ ", output_domain: " ++ Text.quoted m.outputDomain.toText
    ++ ", input_metric: " ++ m.inputMetric.title
    ++ ", output_measure: " ++ m.outputMeasure.title ++ " \x7d"

end Measurement

end PrivateRelease
