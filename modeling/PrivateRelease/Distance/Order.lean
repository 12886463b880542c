import PrivateRelease.Value.Order

/-!
# Distances

Metrics and measures by their descriptors, which values may stand for distances, and when one
distance is within another. Tuples are compared component by component; a curve is within a pair
when its epsilon at the pair's delta is.
-/

namespace PrivateRelease

/-- The metric that a descriptor names. -/
def Metric.ofDescriptor (d : Descriptor) : Except Error Metric :=
  match Metric.ofDescriptor? d with
  | some m => .ok m
  | none => .error (.missing (.metric d))

/-- The measure that a descriptor names. -/
def Measure.ofDescriptor (d : Descriptor) : Except Error Measure :=
  match Measure.ofDescriptor? d with
  | some m => .ok m
  | none => .error (.missing (.measure d))

namespace Distance

/-- Whether a number is finite and not negative. -/
def isUsable (x : Binary .double) : Bool := x.isFinite && !x.lt 0

mutual

/-- Refuses numbers that are negative, infinite or NaN, and what is no number. -/
def validate : Value → Except Error Unit
  | .tuple items => validateAll items
  | .curve _ => .ok ()
  | .scalar (.numeric q) x =>
    if isUsable (Numeric.toDouble x) then .ok () else .error (.badDistance (.outOfRange q x))
  | v => .error (.badDistance (.notNumeric (.wanted .numericScalar v.type)))

def validateAll : List Value → Except Error Unit
  | [] => .ok ()
  | v :: vs => do
    validate v
    validateAll vs

end

/-- By the order of scalars. Incomparable values of one type are not within each other. -/
def leScalar (a b : Value) : Except Error Bool :=
  match a.order b with
  | some o => .ok o.isLE
  | none =>
    if a.type = b.type then .ok false
    else .error (.badCast (.incomparable a.type b.type))

mutual

def le : Value → Value → Except Error Bool
  | .curve c, .tuple [bound, delta] => do
    let epsilon ← c.epsilon (← delta.toDouble)
    return epsilon.le (← bound.toDouble)
  | .tuple as, .tuple bs =>
    if as.length = bs.length then leAll as bs else leScalar (.tuple as) (.tuple bs)
  | a, b => leScalar a b

def leAll : List Value → List Value → Except Error Bool
  | a :: as, b :: bs => do
    if ← le a b then leAll as bs else return false
  | _, _ => .ok true

end

end Distance

end PrivateRelease
