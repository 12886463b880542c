import PrivateRelease.Boundary.Ledger

/-!
# Arguments of a call

The list of type arguments comes as a text that may be null or ill encoded, the value arguments as
an array that may be null, with a length that the caller states.
-/

namespace PrivateRelease.Boundary

/-- The text of the type arguments. -/
inductive Blob where
  | null
  | text (s : String)
  | illEncoded

namespace Blob

/-- The text ends before the first nul byte. -/
def ofBytes (bs : List UInt8) : Blob :=
  match String.fromUTF8? ⟨(bs.takeWhile (· ≠ 0)).toArray⟩ with
  | some s => text s
  | none => illEncoded

/-- Reads the type arguments and checks their number. -/
def types (b : Blob) (expected : Nat) : Except CallError (List Descriptor) := do
  let s ← match b with
    | null => .ok ""
    | text s => .ok s
    | illEncoded => .error (.invalidUtf8 "type arguments")
  match Descriptor.parseArgs s with
  | .error why => throw (.failed (.unreadable why))
  | .ok types =>
    if types.length ≠ expected then throw (.typeArgumentCount expected types.length)
    return types

/-- Fails unless the type arguments are exactly these. -/
def expect (b : Blob) (expected : List Descriptor) : Except CallError Unit := do
  let given ← b.types expected.length
  if given ≠ expected then throw (.failed (.missing (.entry expected given)))

end Blob

structure Arguments where
  payloads : Option (List Payload)
  length : Nat

namespace Arguments

def ofList (ps : List Payload) : Arguments := ⟨some ps, ps.length⟩

/-- The payloads, if their stated number is as expected. What was counted but not given leads
nowhere. -/
def take (a : Arguments) (expected : Nat) : Except CallError (List Payload) :=
  if a.length ≠ expected then .error (.argumentCount expected a.length)
  else if expected = 0 then .ok []
  else
    match a.payloads with
    | some ps => .ok (ps.take expected ++ List.replicate (expected - ps.length) (.reference .stray))
    | none => .error (.nullPointer "args")

def none (a : Arguments) : Except CallError Unit := do
  let _ ← a.take 0

def one (a : Arguments) : Except CallError Payload := do
  match ← a.take 1 with
  | [p] => .ok p
  | _ => .error (.misread "args")

def two (a : Arguments) : Except CallError (Payload × Payload) := do
  match ← a.take 2 with
  | [p, q] => .ok (p, q)
  | _ => .error (.misread "args")

def three (a : Arguments) : Except CallError (Payload × Payload × Payload) := do
  match ← a.take 3 with
  | [p, q, r] => .ok (p, q, r)
  | _ => .error (.misread "args")

end Arguments

end PrivateRelease.Boundary
