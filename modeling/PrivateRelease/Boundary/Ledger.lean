import PrivateRelease.Boundary.Memory

/-!
# The ledger

Every allocation handed to the caller is counted until the caller gives it back. Besides the count
the ledger keeps the last error and the tape of draws. Calls are functions of the ledger, whether
they fail or not.
-/

namespace PrivateRelease.Boundary

structure Ledger where
  live : Int
  lastError : Option String
  tape : Tape

def removeNul (s : String) : String := String.ofList (s.toList.filter (· ≠ '\x00'))

/-- A call body: it may fail, and in any case leaves a ledger. -/
abbrev Call (α : Type) := ExceptT CallError (StateM Ledger) α

namespace Ledger

def start (tape : Tape) : Ledger := ⟨0, none, tape⟩

def allocated (l : Ledger) : Ledger := { l with live := l.live + 1 }

def freed (l : Ledger) : Ledger := { l with live := l.live - 1 }

/-- A message with a nul character cannot be kept. -/
def withError (l : Ledger) (message : String) : Ledger :=
  { l with lastError := if message.toList.contains '\x00' then none else some message }

def clearError (l : Ledger) : Ledger := { l with lastError := none }

end Ledger

namespace Call

variable {α : Type}

def ofExcept (r : Except CallError α) : Call α := fun l => (r, l)

/-- Passes on the outcome of a computation inside the library. -/
def ofCore (r : Except Error α) : Call α := ofExcept (r.mapError .failed)

/-- Runs a sampling computation on the ledger's tape. -/
def sample (s : Sampling α) : Call α := fun l =>
  match s l.tape with
  | .ok (a, tape) => (.ok a, { l with tape })
  | .error e => (.error (.failed e), l)

/-- Hands ownership of a new allocation to the caller. -/
def give (r : Reference) : Call Payload := fun l => (.ok (.reference r), l.allocated)

/-- Hands a string to the caller, without its nul characters. -/
def giveText (s : String) : Call Payload := give (.text (removeNul s))

/-- Takes an allocation back from the caller. -/
def reclaim : Call Payload := fun l => (.ok .null, l.freed)

end Call

/-- What a call returns: a status, and a payload if it is `0` or else a message to be freed. -/
structure Envelope where
  status : Int
  payload : Payload
  message : Option String

namespace Envelope

def isOk (e : Envelope) : Bool := e.status == 0

def ofPayload (p : Payload) : Envelope := ⟨Status.ok.code, p, none⟩

/-- The envelope of a failure. The message becomes the last error and an allocation. -/
def ofFailure (s : Status) (message : String) : StateM Ledger Envelope := fun l =>
  (⟨s.code, .null, some (removeNul message)⟩, (l.withError message).allocated)

/-- Runs a call body to its envelope. -/
def ofCall (body : Call Payload) : StateM Ledger Envelope := fun l =>
  match body l with
  | (.ok p, l) => (ofPayload p, l)
  | (.error e, l) => ofFailure e.status e.message l

end Envelope

end PrivateRelease.Boundary
