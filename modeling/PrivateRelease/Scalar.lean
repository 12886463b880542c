import PrivateRelease.Number.Integer
import PrivateRelease.Number.Text
import PrivateRelease.Text.Quoted

/-!
# Scalar types

The primitive types and the values they carry, with numeric equality, order and text. A kernel that
works for several carriers takes the type as an argument.
-/

namespace PrivateRelease

inductive Numeric where
  | integer (k : IntegerType)
  | float (p : Precision)
  deriving DecidableEq, Repr

namespace Numeric

abbrev Carrier : Numeric → Type
  | integer k => Bounded k
  | float p => Binary p

def decEq : {q : Numeric} → (x y : q.Carrier) → Decidable (x = y)
  | integer _, x, y => inferInstanceAs (Decidable (x = y))
  | float _, x, y => inferInstanceAs (Decidable (x = y))

instance {q : Numeric} : DecidableEq q.Carrier := decEq

def name : Numeric → String
  | integer .i32 => "i32"
  | integer .i64 => "i64"
  | integer .u32 => "u32"
  | integer .u64 => "u64"
  | float .single => "f32"
  | float .double => "f64"

/-- The name as a constructor of types. -/
def title : Numeric → String
  | integer .i32 => "I32"
  | integer .i64 => "I64"
  | integer .u32 => "U32"
  | integer .u64 => "U64"
  | float .single => "F32"
  | float .double => "F64"

/-- Every numeric type. -/
def all : List Numeric :=
  [integer .i32, integer .i64, integer .u32, integer .u64, float .single, float .double]

def ofName? (s : String) : Option Numeric := all.find? fun q => q.name == s

/-- Numeric equality, under which a NaN differs from itself. -/
def same : {q : Numeric} → q.Carrier → q.Carrier → Bool
  | integer _, x, y => x == y
  | float _, x, y => Binary.same x y

def order : {q : Numeric} → q.Carrier → q.Carrier → Option Ordering
  | integer _, x, y => some (compare (Bounded.val x) (Bounded.val y))
  | float _, x, y => Binary.order x y

def le {q : Numeric} (x y : q.Carrier) : Bool :=
  match order x y with
  | some o => o.isLE
  | none => false

def isNaN : {q : Numeric} → q.Carrier → Bool
  | integer _, _ => false
  | float _, x => Binary.isNaN x

/-- The nearest double. -/
def toDouble : {q : Numeric} → q.Carrier → Binary .double
  | integer _, x => Binary.ofInt (Bounded.val x)
  | float _, x => Binary.convert x

def toText : {q : Numeric} → q.Carrier → String
  | integer _, x => toString (Bounded.val x)
  | float _, x => Binary.toText x

end Numeric

inductive Primitive where
  | bool
  | numeric (q : Numeric)
  | string
  deriving DecidableEq, Repr

namespace Primitive

abbrev Carrier : Primitive → Type
  | bool => Bool
  | numeric q => q.Carrier
  | string => String

def decEq : {p : Primitive} → (x y : p.Carrier) → Decidable (x = y)
  | bool, x, y => inferInstanceAs (Decidable ((x : Bool) = y))
  | numeric _, x, y => Numeric.decEq x y
  | string, x, y => inferInstanceAs (Decidable ((x : String) = y))

instance {p : Primitive} : DecidableEq p.Carrier := decEq

def name : Primitive → String
  | bool => "bool"
  | numeric q => q.name
  | string => "String"

def title : Primitive → String
  | bool => "Bool"
  | numeric q => q.title
  | string => "String"

/-- Every primitive type. -/
def all : List Primitive := [bool] ++ Numeric.all.map numeric ++ [string]

def ofName? (s : String) : Option Primitive := all.find? fun p => p.name == s

def same : {p : Primitive} → p.Carrier → p.Carrier → Bool
  | bool, x, y => (x : Bool) == y
  | numeric _, x, y => Numeric.same x y
  | string, x, y => (x : String) == y

def order : {p : Primitive} → p.Carrier → p.Carrier → Option Ordering
  | bool, x, y => some (compare (x : Bool) y)
  | numeric _, x, y => Numeric.order x y
  | string, x, y => some (compare (x : String) y)

def isNaN : {p : Primitive} → p.Carrier → Bool
  | numeric _, x => Numeric.isNaN x
  | bool, _ => false
  | string, _ => false

/-- Strings are quoted. -/
def toText : {p : Primitive} → p.Carrier → String
  | bool, x => if (x : Bool) then "true" else "false"
  | numeric _, x => Numeric.toText x
  | string, x => Text.quoted x

theorem ofName?_name (p : Primitive) : ofName? p.name = some p := by
  rcases p with _ | q | _
  · decide
  · rcases q with k | p
    · cases k <;> decide
    · cases p <;> decide
  · decide

end Primitive

end PrivateRelease
