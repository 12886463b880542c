import PrivateRelease.Descriptor.Reader
import PrivateRelease.Error
import PrivateRelease.Host.Convention
import PrivateRelease.Host.Value

/-!
# Host failures

Why an operation of the host did not succeed. Failures of native calls keep the native message as it
is; two kinds of native failure are the host's own kinds as well.
-/

namespace PrivateRelease.Host

namespace Failure

inductive Unsupported where
  | marker (m : Marker)
  | unreadable (why : Descriptor.Unreadable)
  /-- A text given for a type. -/
  | unreadableType (why : Descriptor.Unreadable)
  | emptyList
  | hintRequired (name : String)
  | unbound (name operation : String)
  | encodedValue (d : Descriptor)
  | encodedVector (d : Descriptor)
  | decodedValue (d : Descriptor)
  | decodedVector (d : Descriptor)
  | curveLoss (measure : String)
  | noCurve (measure : String)
  | notSmoothed (wanted given : String)
  | noCarrier (d : Descriptor)

def Unsupported.text : Unsupported → String
  | marker m => s!"host type {m} has no native counterpart, pass a descriptor"
  | unreadable why => (Error.unreadable why).message
  | unreadableType why => why.text ++ ": " ++ (Error.unreadable why).message
  | emptyList => "cannot infer the element type of an empty list"
  | hintRequired name => s!"type argument {name} must be given explicitly"
  | unbound name operation => s!"type argument {name} of {operation} is unbound"
  | encodedValue d => s!"values of type {d} cannot be marshalled"
  | encodedVector d => s!"vectors of {d} cannot be marshalled"
  | decodedValue d => s!"cannot decode values of type {d}"
  | decodedVector d => s!"cannot decode vectors of {d}"
  | curveLoss measure => s!"{measure} maps to a privacy curve, use map_curve"
  | noCurve measure => s!"{measure} does not map to a privacy curve"
  | notSmoothed wanted given => s!"fix_delta requires a {wanted} measure, got {given}"
  | noCarrier d => s!"{d} has no carrier type"

inductive Unmarshalled where
  | mismatch (v : Value) (d : Descriptor)
  | outOfRange (n : Bounded .i64) (d : Descriptor)
  | notByValue (d : Descriptor)
  | notReturned (d : Descriptor)
  | notByReference (d : Descriptor)
  | overflow (n : Nat)
  | parameterOverflow (parameter : String) (n : Nat)
  | passing (parameter : String) (expected : Passing) (given : String)
  | componentCount (v : Value) (given : Nat) (d : Descriptor) (expected : Nat)
  | viewedComponents (d : Descriptor) (n : Nat)
  | emptyView (d : Descriptor)
  | illEncoded
  | argumentCount (operation : String) (expected given : Nat)
  | nulInTypes (blob : String)
  | handleWanted (given : String)
  | valueWanted (given : String)
  | otherWanted (what : String) (given : Value)
  | nullText
  /-- Memory that is not laid out as its type says. -/
  | misread (d : Descriptor)

def Unmarshalled.text : Unmarshalled → String
  | mismatch v d => s!"cannot marshal {v} as {d}"
  | outOfRange n d => s!"{n.val} is out of range for {d}"
  | notByValue d => s!"{d} cannot be passed by value"
  | notReturned d => s!"{d} is not returned by value"
  | notByReference d => s!"{d} cannot be passed by reference"
  | overflow n => s!"{n} overflows a host integer"
  | parameterOverflow parameter n => s!"{parameter} {n} overflows a host integer"
  | passing parameter expected given => s!"{parameter} is passed {expected}, got {given}"
  | componentCount v given d expected => s!"{v} has {given} components, {d} expects {expected}"
  | viewedComponents d n => s!"{d} viewed with {n} components"
  | emptyView d => s!"empty view of a {d}"
  | illEncoded => "native string is not valid UTF-8"
  | argumentCount operation expected given =>
    s!"{operation} expects {expected} arguments, got {given}"
  | nulInTypes blob => "type arguments " ++ Text.quoted blob ++ " contain a nul byte"
  | handleWanted given => s!"expected a native handle, got {given}"
  | valueWanted given => s!"expected a host value, got {given}"
  | otherWanted what given => s!"expected {what}, got {given}"
  | nullText => "native call returned a null string"
  | misread d => s!"native memory does not hold a {d}"

inductive Undispatched where
  | noEntry (symbol : String)
  | nullHandle (k : Kind)
  /-- A native thing of another kind than was announced. -/
  | otherHandle (k : Kind)

def Undispatched.text : Undispatched → String
  | noEntry symbol => s!"no native instantiation named {symbol}"
  | nullHandle k => s!"native call returned a null {k}"
  | otherHandle k => s!"native call did not return a {k}"

inductive Mismatch where
  | native (message : String)
  | domains (output input : String)
  | metrics (output input : String)
  | afterMeasurement (measure : String)
  | notTransformation (measure : String)
  | notMeasurement (metric : String)
  | composed (what first other : String)

def Mismatch.text : Mismatch → String
  | native message => message
  | domains output input => s!"output domain {output} does not match input domain {input}"
  | metrics output input => s!"output metric {output} does not match input metric {input}"
  | afterMeasurement measure => s!"cannot chain after a measurement into {measure}"
  | notTransformation measure => s!"expected a transformation, got a measurement into {measure}"
  | notMeasurement metric => s!"expected a measurement, got a transformation into {metric}"
  | composed what first other =>
    s!"composed measurements disagree on {what}: {first} and {other}"

inductive OutOfDomain where
  | native (message : String)
  | negative (metric : String) (d : Value)

def OutOfDomain.text : OutOfDomain → String
  | native message => message
  | negative metric d => s!"{metric} distances are non-negative, got {d}"

end Failure

open Failure in
inductive Failure where
  | unsupported (why : Unsupported)
  | unmarshalled (why : Unmarshalled)
  | undispatched (why : Undispatched)
  | featureDisabled (feature operation : String)
  | native (code : Int) (message : String)
  | mismatch (why : Mismatch)
  | outOfDomain (why : OutOfDomain)

namespace Failure

/-- The name of the kind of failure. -/
def name : Failure → String
  | unsupported _ => "UnsupportedType"
  | unmarshalled _ => "Marshal"
  | undispatched _ => "Dispatch"
  | featureDisabled .. => "FeatureDisabled"
  | native .. => "Native"
  | mismatch _ => "DomainMismatch"
  | outOfDomain _ => "Domain"

/-- The status code of a failure of a native call. -/
def code? : Failure → Option Int
  | native code _ => some code
  | _ => none

def message : Failure → String
  | unsupported why => "Unsupported type: " ++ why.text
  | unmarshalled why => "Marshal error: " ++ why.text
  | undispatched why => "Dispatch error: " ++ why.text
  | featureDisabled feature operation =>
    s!"Feature disabled: {feature} is required by {operation}"
  | native code message => s!"Native error {code}: {message}"
  | mismatch why => "Domain mismatch: " ++ why.text
  | outOfDomain why => "Domain error: " ++ why.text

end Failure

end PrivateRelease.Host
