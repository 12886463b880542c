import PrivateRelease.Error

/-!
# Values

A value knows its type. Values are scalars, vectors of scalars, tuples of values and privacy curves.
-/

namespace PrivateRelease

/-- Epsilon as a function of delta. Curves are told apart by their marks; an unmarked curve is like
no other. -/
structure Curve where
  carrier : Descriptor
  rule : Binary .double → Except Error (Binary .double)
  mark : Option Nat

namespace Curve

/-- Whether a failure probability lies strictly between `0` and `1`. -/
def isProbability (delta : Binary .double) : Bool :=
  Binary.lt 0 delta && Binary.lt delta 1

/-- The least epsilon that holds with failure probability `delta`. -/
def epsilon (c : Curve) (delta : Binary .double) : Except Error (Binary .double) :=
  if isProbability delta then c.rule delta else .error (.badDistance (.delta delta))

def descriptor (c : Curve) : Descriptor := .generic "SMDCurve" [c.carrier]

def toText (c : Curve) : String := c.descriptor.toText

def same (c d : Curve) : Bool := c.carrier == d.carrier && c.mark.isSome && c.mark == d.mark

end Curve

inductive Value where
  | scalar (p : Primitive) (x : p.Carrier)
  | vector (p : Primitive) (xs : List p.Carrier)
  | tuple (items : List Value)
  | curve (c : Curve)

namespace Value

instance : Inhabited Value := ⟨tuple []⟩

def bool (b : Bool) : Value := scalar .bool b

def numeric (q : Numeric) (x : q.Carrier) : Value := scalar (.numeric q) x

def float (p : Precision) (x : Binary p) : Value := numeric (.float p) x

def integer (k : IntegerType) (n : Bounded k) : Value := numeric (.integer k) n

/-- The count `n`, at most the largest one that fits. -/
def count (n : Int) : Value := integer .u32 (Bounded.clamp .u32 n)

mutual

def type : Value → Descriptor
  | scalar p _ => .primitive p
  | vector p _ => .vector (.primitive p)
  | tuple items => .tuple (types items)
  | curve c => c.descriptor

def types : List Value → List Descriptor
  | [] => []
  | v :: vs => v.type :: types vs

end

theorem types_eq_map (vs : List Value) : types vs = vs.map type := by
  induction vs with
  | nil => simp [types]
  | cons v vs ih => simp [types, ih]

/-! ## Text

Vectors stand in square brackets and tuples in round ones; strings are quoted. -/

def commaSeparated (parts : List String) : String := String.intercalate ", " parts

mutual

def toText : Value → String
  | scalar _ x => Primitive.toText x
  | vector _ xs => "[" ++ commaSeparated (xs.map Primitive.toText) ++ "]"
  | tuple items => "(" ++ commaSeparated (texts items) ++ ")"
  | curve c => c.toText

def texts : List Value → List String
  | [] => []
  | v :: vs => v.toText :: texts vs

end

instance : ToString Value := ⟨toText⟩

/-! ## Reading -/

def scalar? (p : Primitive) : Value → Option p.Carrier
  | scalar q x => if h : q = p then some (h ▸ x) else none
  | _ => none

def vector? (p : Primitive) : Value → Option (List p.Carrier)
  | vector q xs => if h : q = p then some (h ▸ xs) else none
  | _ => none

def wanted {α : Type} (what : Error.Wanted) (v : Value) : Except Error α :=
  .error (.badCast (.wanted what v.type))

/-- The scalar of type `p`. -/
def toScalar (p : Primitive) (v : Value) : Except Error p.Carrier :=
  match v.scalar? p with
  | some x => .ok x
  | none => v.wanted (.type (.primitive p))

/-- The elements of a vector of type `p`. -/
def toVector (p : Primitive) (v : Value) : Except Error (List p.Carrier) :=
  match v.vector? p with
  | some xs => .ok xs
  | none => v.wanted (.type (.vector (.primitive p)))

/-- A numeric scalar as the nearest double. -/
def toDouble : Value → Except Error (Binary .double)
  | scalar (.numeric _) x => .ok (Numeric.toDouble x)
  | v => v.wanted .numericScalar

/-- A number of records. -/
def toCount (v : Value) : Except Error (Bounded .u32) :=
  v.toScalar (.numeric (.integer .u32))

def toCurve : Value → Except Error Curve
  | curve c => .ok c
  | v => v.wanted .curve

def toTuple : Value → Except Error (List Value)
  | tuple items => .ok items
  | v => v.wanted .tuple

/-- The number of elements of a vector over `element`. -/
def length (v : Value) (element : Descriptor) : Except Error Nat :=
  match v with
  | vector p xs =>
    if element = .primitive p then .ok xs.length else v.wanted (.type (.vector element))
  | _ => v.wanted (.type (.vector element))

/-- The elements of a vector or a tuple. -/
def elements? : Value → Option (List Value)
  | vector p xs => some (xs.map (scalar p))
  | tuple items => some items
  | _ => none

/-! ## Building -/

/-- A distance of precision `p` that is not below `x`. -/
def upward (p : Precision) (x : Binary .double) : Value := float p (x.roundUp p)

/-- As `upward`, for a precision given by its type. -/
def upwardAs (carrier : Descriptor) (x : Binary .double) : Except Error Value :=
  match carrier with
  | .primitive (.numeric (.float p)) => .ok (upward p x)
  | d => .error (.badCast (.notFloat d))

theorem scalar?_scalar (p : Primitive) (x : p.Carrier) : (scalar p x).scalar? p = some x := by
  simp [scalar?]

theorem vector?_vector (p : Primitive) (xs : List p.Carrier) :
    (vector p xs).vector? p = some xs := by
  simp [vector?]

end Value

end PrivateRelease
