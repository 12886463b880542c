import PrivateRelease.Descriptor.Substitution
import PrivateRelease.Host.Failure

/-!
# Choosing types

The host chooses the types of a native operation from hints, which are markers or texts, from the
values at hand, or from shapes with parameters that are bound already.
-/

namespace PrivateRelease.Host

/-- The type that stands for a marker, if there is one. -/
def Marker.descriptor? : Marker → Option Descriptor
  | bool => some (.primitive .bool)
  | int => some (.integer .i32)
  | float => some (.float .double)
  | text => some (.primitive .string)
  | list => none
  | tuple => none

def Marker.toDescriptor (m : Marker) : Except Failure Descriptor :=
  match m.descriptor? with
  | some d => .ok d
  | none => .error (.unsupported (.marker m))

/-- A type as the host gives it. -/
inductive TypeHint where
  | host (m : Marker)
  | descriptor (text : String)
  deriving DecidableEq, Repr

namespace TypeHint

def markedText : TypeHint → String
  | host m => "Host(" ++ m.name ++ ")"
  | descriptor text => "Descriptor(" ++ Text.quoted text ++ ")"

def toDescriptor : TypeHint → Except Failure Descriptor
  | host m => m.toDescriptor
  | descriptor text => (Descriptor.parse text).mapError fun why => .unsupported (.unreadableType why)

end TypeHint

namespace Value

mutual

/-- The type of the value; that of a list is told by its first item. -/
def inferred : Value → Except Failure Descriptor
  | list [] => .error (.unsupported .emptyList)
  | list (v :: _) => return .vector (← v.inferred)
  | tuple items => return .tuple (← inferredAll items)
  | bool _ => Marker.toDescriptor .bool
  | int _ => Marker.toDescriptor .int
  | float _ => Marker.toDescriptor .float
  | text _ => Marker.toDescriptor .text

def inferredAll : List Value → Except Failure (List Descriptor)
  | [] => return []
  | v :: vs => return (← v.inferred) :: (← inferredAll vs)

end

end Value

/-! ## Shapes -/

/-- The type of a shape such as `(T,T)`. -/
def template (shape : String) (b : Bindings) : Except Failure Descriptor :=
  match Descriptor.parse shape with
  | .ok d => .ok (d.substitute b)
  | .error why => .error (.unsupported (.unreadable why))

/-- The types of a shape such as `<MI,L1Sensitivity<T>>`. -/
def templateArgs (shape : String) (b : Bindings) : Except Failure (List Descriptor) :=
  match Descriptor.parseArgs shape with
  | .ok ds => .ok (ds.map (Descriptor.substitute b))
  | .error why => .error (.unsupported (.unreadable why))

/-! ## Hints by name -/

/-- Hints for type parameters; the first hint for a name counts. -/
abbrev Hints := List (String × TypeHint)

namespace Hints

/-- The type hinted for a parameter, or else the fallback. -/
def resolve (h : Hints) (name : String) (fallback : Except Failure Descriptor) :
    Except Failure Descriptor :=
  match h.lookup name with
  | some hint => hint.toDescriptor
  | none => fallback

/-- The type hinted for a parameter that has no default. -/
def require (h : Hints) (name : String) : Except Failure Descriptor :=
  h.resolve name (.error (.unsupported (.hintRequired name)))

end Hints

end PrivateRelease.Host
