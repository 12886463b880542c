import PrivateRelease.Error

/-!
# Status codes

The outcome of a native call as a number, and the errors that a call can end in.
-/

namespace PrivateRelease.Boundary

inductive Status where
  | ok
  | invalidArgument
  | typeParse
  | unimplemented
  | domainMismatch
  | failedFunction
  | failedMap
  | makeTransformation
  | makeMeasurement
  | failedCast
  | nullPointer
  | internal
  deriving DecidableEq, Repr

namespace Status

def code : Status → Int
  | ok => 0
  | invalidArgument => -1
  | typeParse => -2
  | unimplemented => -3
  | domainMismatch => -4
  | failedFunction => -5
  | failedMap => -6
  | makeTransformation => -7
  | makeMeasurement => -8
  | failedCast => -9
  | nullPointer => -10
  | internal => -99

def name : Status → String
  | ok => "Ok"
  | invalidArgument => "InvalidArgument"
  | typeParse => "TypeParse"
  | unimplemented => "Unimplemented"
  | domainMismatch => "DomainMismatch"
  | failedFunction => "FailedFunction"
  | failedMap => "FailedMap"
  | makeTransformation => "MakeTransformation"
  | makeMeasurement => "MakeMeasurement"
  | failedCast => "FailedCast"
  | nullPointer => "NullPointer"
  | internal => "Internal"

def all : List Status :=
  [ok, invalidArgument, typeParse, unimplemented, domainMismatch, failedFunction, failedMap,
    makeTransformation, makeMeasurement, failedCast, nullPointer, internal]

def ofCode? (n : Int) : Option Status := all.find? fun s => s.code = n

def ofKind : Error.Kind → Status
  | .typeParse => typeParse
  | .notImplemented => unimplemented
  | .domainMismatch => domainMismatch
  | .makeTransformation => makeTransformation
  | .makeMeasurement => makeMeasurement
  | .failedFunction => failedFunction
  | .failedMap => failedMap
  | .failedCast => failedCast
  | .invalidArgument => invalidArgument

theorem ofCode?_code (s : Status) : ofCode? s.code = some s := by
  cases s <;> decide

end Status

inductive CallError where
  | nullPointer (what : String)
  | invalidUtf8 (what : String)
  | argumentCount (expected given : Nat)
  | typeArgumentCount (expected given : Nat)
  | failed (why : Error)
  | panic (text : String)
  /-- A reference to something other than what is read from it. -/
  | misread (what : String)

namespace CallError

def status : CallError → Status
  | nullPointer _ => .nullPointer
  | invalidUtf8 _ => .invalidArgument
  | argumentCount .. => .invalidArgument
  | typeArgumentCount .. => .typeParse
  | failed why => .ofKind why.kind
  | panic _ => .internal
  | misread _ => .internal

def message : CallError → String
  | nullPointer what => s!"Null pointer passed for {what}"
  | invalidUtf8 what => s!"Invalid UTF-8 in {what}"
  | argumentCount expected given => s!"Expected {expected} arguments, got {given}"
  | typeArgumentCount expected given => s!"Expected {expected} type arguments, got {given}"
  | failed why => why.message
  | panic text => s!"Native panic: {text}"
  | misread what => s!"Native panic: misread {what}"

end CallError

end PrivateRelease.Boundary
