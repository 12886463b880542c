import PrivateRelease.Host.Frame
import PrivateRelease.Host.Reading

/-!
# Dispatch

Calls the operation of a signature: checks the features and the number of arguments, chooses the
entry point by the types, passes the arguments and reads the result.
-/

namespace PrivateRelease.Host

open Boundary (Envelope Payload)

/-- What a dispatch returns. -/
inductive Returned where
  | handle (h : Handle)
  | value (v : Value)
  | unit

namespace Returned

def markedText : Returned → String
  | handle h => s!"Handle({h.kind})"
  | value v => "Value(" ++ v.markedText ++ ")"
  | unit => "Unit"

def toHandle : Returned → Except Failure Handle
  | handle h => .ok h
  | r => .error (.unmarshalled (.handleWanted r.markedText))

def toValue : Returned → Except Failure Value
  | value v => .ok v
  | r => .error (.unmarshalled (.valueWanted r.markedText))

/-- The text returned, named for the error if it is no text. -/
def toText (what : String) (r : Returned) : Except Failure String := do
  match ← r.toValue with
  | .text s => .ok s
  | v => .error (.unmarshalled (.otherWanted what v))

def toBool (what : String) (r : Returned) : Except Failure Bool := do
  match ← r.toValue with
  | .bool b => .ok b
  | v => .error (.unmarshalled (.otherWanted what v))

def toDouble (what : String) (r : Returned) : Except Failure (Binary .double) := do
  match ← r.toValue with
  | .float x => .ok x
  | v => .error (.unmarshalled (.otherWanted what v))

variable [Elementary]

/-- Reads a payload as what was announced. -/
def ofPayload (p : Payload) : Outcome → Action Returned
  | .transformation => return handle (← Action.ofExcept (Handle.ofPayload .transformation p))
  | .measurement => return handle (← Action.ofExcept (Handle.ofPayload .measurement p))
  | .object => return handle (← Action.ofExcept (Handle.ofPayload .object p))
  | .view => return handle (← Action.ofExcept (Handle.ofPayload .view p))
  | .value => do
    let object ← Action.ofExcept (Handle.ofPayload .object p)
    return value (← object.read.andAlways object.drop)
  | .bool => return value (← Action.ofExcept (Value.ofWord p (.primitive .bool)))
  | .float => return value (← Action.ofExcept (Value.ofWord p (.float .double)))
  | .text => return value (.text (← takeText p))
  | .unit => return unit

/-- Settles an envelope and reads its payload. -/
def ofEnvelope (e : Envelope) (o : Outcome) : Action Returned := do
  ofPayload (← settle e) o

end Returned

namespace Signature

/-- The types bound to the type parameters. -/
def types (s : Signature) (b : Bindings) : Except Failure (List Descriptor) :=
  s.typeParameters.mapM fun name =>
    match b.lookup name with
    | some d => .ok d
    | none => .error (.unsupported (.unbound name s.qualifiedName))

/-- The symbol of the entry point for the given types. -/
def symbol (s : Signature) (types : List Descriptor) : String :=
  Descriptor.symbol s.module s.name (if s.instantiated then types else [])

variable [Elementary]

/-- Calls the operation and reads its result. -/
def call (s : Signature) (features : Features) (b : Bindings) (args : List Argument) :
    Action Returned := do
  Action.ofExcept (features.require s.features s.qualifiedName)
  if args.length ≠ s.parameters.length then
    throw (.unmarshalled (.argumentCount s.qualifiedName s.parameters.length args.length))
  let types ← Action.ofExcept (s.types b)
  let frame ← Frame.pushAll b (s.parameters.zip args) .empty
  let run : Action Returned := do
    let e ← invoke (s.symbol types) (Descriptor.argsText types) frame.payloads
    Returned.ofEnvelope e s.returns
  run.andAlways frame.drop

end Signature

end PrivateRelease.Host
