import PrivateRelease.Host.Call

/-!
# Handles

A handle owns a native thing and the handles of what it was made from. Handles form a tree; releasing
the root gives everything back, children first.
-/

namespace PrivateRelease.Host

open Boundary (Ledger Memory Payload Reference)

/-- A native thing that the host can own. -/
inductive Holding where
  | transformation (t : Transformation)
  | measurement (m : Measurement)
  | object (v : PrivateRelease.Value)
  | view (m : Memory)

namespace Holding

def kind : Holding → Kind
  | transformation _ => .transformation
  | measurement _ => .measurement
  | object _ => .object
  | view _ => .view

def reference : Holding → Reference
  | transformation t => .transformation t
  | measurement m => .measurement m
  | object v => .object v
  | view m => .view m

/-- What a reference of a known kind refers to. -/
def ofReference? : Kind → Reference → Option Holding
  | .transformation, .transformation t => some (transformation t)
  | .measurement, .measurement m => some (measurement m)
  | .object, .object v => some (object v)
  | .view, .view m => some (view m)
  | _, _ => none

end Holding

structure Handle where
  holding : Holding
  children : List Handle

namespace Handle

def kind (h : Handle) : Kind := h.holding.kind

def payload (h : Handle) : Payload := .reference h.holding.reference

/-- The handle of a returned payload, which owns nothing else yet. -/
def ofPayload (k : Kind) : Payload → Except Failure Handle
  | .reference r =>
    match Holding.ofReference? k r with
    | some holding => .ok ⟨holding, []⟩
    | none => .error (.undispatched (.otherHandle k))
  | .word _ => .error (.undispatched (.nullHandle k))

/-- Takes over the handles that this one was made from. -/
def adopt (h : Handle) (children : List Handle) : Handle :=
  { h with children := h.children ++ children }

mutual

/-- How many allocations the tree owns. -/
def allocationCount : Handle → Nat
  | ⟨_, children⟩ => 1 + allocationCounts children

def allocationCounts : List Handle → Nat
  | [] => 0
  | h :: hs => allocationCount h + allocationCounts hs

end

variable [Elementary]

mutual

/-- Gives the whole tree back, children first, and says how many allocations that were. -/
def release : Handle → Action Nat
  | ⟨holding, children⟩ => do
    let freed ← releaseAll children
    let _ ← perform holding.kind.freeSymbol "" [.reference holding.reference]
    return freed + 1

def releaseAll : List Handle → Action Nat
  | [] => return 0
  | h :: hs => do
    let freed ← release h
    return freed + (← releaseAll hs)

end

/-- Gives the whole tree back. -/
def drop (h : Handle) : StateM Ledger Unit := h.release.ignore

def dropAll : List Handle → StateM Ledger Unit
  | [] => return ()
  | h :: hs => do
    h.drop
    dropAll hs

end Handle

end PrivateRelease.Host
