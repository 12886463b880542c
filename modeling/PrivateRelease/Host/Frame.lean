import PrivateRelease.Host.Handle
import PrivateRelease.Host.Marshal
import PrivateRelease.Host.Resolution
import PrivateRelease.Host.Signature

/-!
# Call frames

A frame holds the payloads of a call while they are put together, and the objects that were made for
it. It lives until the call is over.
-/

namespace PrivateRelease.Host

open Boundary (Ledger Memory Payload Reference)

inductive Argument where
  | value (v : Value)
  | handle (h : Handle)
  | handles (hs : List Handle)

def Argument.description : Argument → String
  | value v => s!"value {v}"
  | handle h => s!"{h.kind} handle"
  | handles hs => s!"{hs.length} handles"

structure Frame where
  payloads : List Payload
  temporaries : List Handle

namespace Frame

def empty : Frame := ⟨[], []⟩

def withPayload (f : Frame) (p : Payload) : Frame := { f with payloads := f.payloads ++ [p] }

def withTemporary (f : Frame) (h : Handle) : Frame :=
  { payloads := f.payloads ++ [h.payload], temporaries := f.temporaries ++ [h] }

def handleReference (h : Handle) : Option Reference := some h.holding.reference

variable [Elementary]

/-- Makes a native object of a host value. -/
def makeObject (v : Value) (d : Descriptor) : Action Handle := do
  let m ← Action.ofExcept (v.toMemory d)
  let object ← perform "data__slice_as_object" (Descriptor.argsText [d]) [.reference (.slice m)]
  Action.ofExcept (Handle.ofPayload .object object)

/-- Adds an argument in the way that its parameter is passed. -/
def push (f : Frame) (b : Bindings) (p : Parameter) (a : Argument) : Action Frame := do
  match p.passing, a with
  | .byValue, .value v =>
    let d ← Action.ofExcept (template p.shape b)
    return f.withPayload (← Action.ofExcept (v.toWord d))
  | .byReference, .value v =>
    let d ← Action.ofExcept (template p.shape b)
    return f.withPayload (.reference (← Action.ofExcept (v.toSlot d)))
  | .object, .value v =>
    let d ← Action.ofExcept (template p.shape b)
    return f.withTemporary (← makeObject v d)
  | .handle, .handle h => return f.withPayload h.payload
  | .handles, .handles hs =>
    return f.withPayload (.reference (.slice (.references (hs.map handleReference))))
  | passing, a => throw (.unmarshalled (.passing p.name passing a.description))

/-- Gives back the objects made for the call. -/
def drop (f : Frame) : StateM Ledger Unit := Handle.dropAll f.temporaries

/-- Adds arguments in order; a failure gives back what was made so far. -/
def pushAll (b : Bindings) : List (Parameter × Argument) → Frame → Action Frame
  | [], f => return f
  | (p, a) :: rest, f => do
    let f ← (f.push b p a).orElseRun f.drop
    pushAll b rest f

end Frame

end PrivateRelease.Host
