import PrivateRelease.Value.Order

/-!
# Membership

Every member of a domain has the domain's carrier as its type; NaN is a member of no domain of
numbers.
-/

namespace PrivateRelease

namespace Domain

/-- The numbers from `lower` to `upper`. -/
def ofBounds (q : Numeric) (lower upper : q.Carrier) : Except Error.BadArgument Domain :=
  if h : Numeric.le lower upper then .ok (interval q lower upper h)
  else .error (.boundOrder q lower upper)

/-- As `ofBounds`, for values that have yet to show numbers of one type. -/
def ofValues (lower upper : Value) : Except Error.BadArgument Domain :=
  match lower with
  | .scalar (.numeric q) x =>
    match upper.scalar? (.numeric q) with
    | some y => ofBounds q x y
    | none => .error (.boundTypes lower.type upper.type)
  | _ => .error (.boundTypes lower.type upper.type)

def isNaN : Value → Bool
  | .scalar _ x => Primitive.isNaN x
  | _ => false

mutual

def member : Domain → Value → Bool
  | all d, v => v.type == d && !isNaN v
  | interval q lower upper _, v =>
    match v.scalar? (.numeric q) with
    | some x => Numeric.le lower x && Numeric.le x upper
    | none => false
  | vector inner, v =>
    v.type == .vector inner.carrier &&
      match v.elements? with
      | some items => items.all fun item => inner.member item
      | none => false
  | sized inner size, v =>
    match inner.carrier.element? with
    | some element =>
      match v.length element with
      | .ok n => n == size && inner.member v
      | .error _ => false
    | none => false
  | product parts, v =>
    match v with
    | .tuple items => memberwise parts items
    | _ => false

/-- One member for each domain. -/
def memberwise : List Domain → List Value → Bool
  | [], [] => true
  | d :: ds, v :: vs => d.member v && memberwise ds vs
  | _, _ => false

end

end Domain

end PrivateRelease
