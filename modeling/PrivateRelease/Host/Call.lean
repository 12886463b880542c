import PrivateRelease.Boundary.Export
import PrivateRelease.Host.Action

/-!
# Native calls

A call goes through the table of entry points, happens once and is never repeated. Its envelope is
settled into a payload or a failure; the message of a failed call is given back at once, and so is a
text that has been read.
-/

namespace PrivateRelease.Host

open Boundary (Ledger Envelope Payload Status)

variable [Elementary]

/-- Calls the entry point of a symbol. -/
def invoke (symbol blob : String) (args : List Payload) : Action Envelope := do
  match Boundary.Export.lookup symbol with
  | none => throw (.undispatched (.noEntry symbol))
  | some entry =>
    if blob.toList.contains '\x00' then throw (.unmarshalled (.nulInTypes blob))
    liftM (entry.call (.text blob) (.ofList args))

/-- The failure that a status and a message stand for. -/
def Failure.ofStatus (code : Int) (message : String) : Failure :=
  match Status.ofCode? code with
  | some .domainMismatch => .mismatch (.native message)
  | some .failedMap => .outOfDomain (.native message)
  | _ => .native code message

/-- The payload of a successful call. -/
def settle (e : Envelope) : Action Payload := fun l =>
  if e.isOk then (.ok e.payload, l)
  else
    match e.message with
    | some message => (.error (.ofStatus e.status message), l.freed)
    | none => (.error (.ofStatus e.status ""), l)

/-- Calls the entry point of a symbol and settles the envelope. -/
def perform (symbol blob : String) (args : List Payload) : Action Payload := do
  settle (← invoke symbol blob args)

/-- Reads a text that the caller owns, and gives it back. -/
def takeText (p : Payload) : Action String := do
  match p with
  | .reference (.text s) =>
    let _ ← perform "data__str_free" "" [p]
    return s
  | _ => throw (.unmarshalled .nullText)

end PrivateRelease.Host
