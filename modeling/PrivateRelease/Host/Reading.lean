import PrivateRelease.Host.Handle
import PrivateRelease.Host.Marshal

/-!
# Reading objects

A native object is read through a view of its memory, in the way that its type says. The components
of a tuple are objects of their own and are viewed one after the other. Every view is given back.
-/

namespace PrivateRelease.Host

open Boundary (Memory Payload Reference)

namespace Value

/-- The items that memory holds; null memory holds none. -/
def held {α : Type} (d : Descriptor) (m : Memory) (items : Option (List α)) :
    Except Failure (List α) :=
  match m, items with
  | .null _, _ => .ok []
  | m, none => if m.length = 0 then .ok [] else .error (.unmarshalled (.misread d))
  | _, some xs => .ok xs

def ofUtf8 (m : Memory) : Except Failure String := do
  let bytes ← held (.primitive .string) m m.bytes?
  match String.fromUTF8? ⟨bytes.toArray⟩ with
  | some s => .ok s
  | none => .error (.unmarshalled .illEncoded)

def ofUtf8s : List Memory → Except Failure (List Value)
  | [] => return []
  | m :: ms => do
    let s ← ofUtf8 m
    return text s :: (← ofUtf8s ms)

/-- The scalars in memory. -/
def ofItems (m : Memory) : (p : Primitive) → Except Failure (List Value)
  | .bool => return (← held (.primitive .bool) m m.bytes?).map fun b => bool (b != 0)
  | .numeric q => do ofScalars (.numeric q) (← held (.numeric q) m (m.numbers? q))
  | .string => do ofUtf8s (← held (.primitive .string) m m.slices?)

/-- The one value of a type that is no tuple. -/
def ofMemory (m : Memory) : Descriptor → Except Failure Value
  | .primitive .string => return text (← ofUtf8 m)
  | .primitive p => do
    match ← ofItems m p with
    | v :: _ => return v
    | [] => throw (.unmarshalled (.emptyView (.primitive p)))
  | d =>
    match d.element? with
    | some (.primitive p) => return list (← ofItems m p)
    | some element => throw (.unsupported (.decodedVector element))
    | none => throw (.unsupported (.decodedValue d))

end Value

variable [Elementary]

/-- Views an object while the action runs. -/
def viewing {α : Type} (object : Payload) (k : Memory → Action α) : Action α := do
  let view ← Action.ofExcept (Handle.ofPayload .view (← perform "data__object_as_slice" "" [object]))
  match view.holding with
  | .view m => (k m).andAlways view.drop
  | _ => throw (.undispatched (.otherHandle .view))

mutual

/-- Reads an object of a known type. -/
def readObject : Descriptor → Payload → Action Value
  | .tuple items, object => viewing object fun m => do
    let members ← Action.ofExcept (Value.held (.tuple items) m m.references?)
    if members.length ≠ items.length then
      throw (.unmarshalled (.viewedComponents (.tuple items) members.length))
    return .tuple (← readObjects items members)
  | .primitive p, object => viewing object fun m => Action.ofExcept (Value.ofMemory m (.primitive p))
  | .generic name args, object =>
    viewing object fun m => Action.ofExcept (Value.ofMemory m (.generic name args))

def readObjects : List Descriptor → List (Option Reference) → Action (List Value)
  | d :: ds, r :: rs => do
    let v ← readObject d (match r with | some r => .reference r | none => .null)
    return v :: (← readObjects ds rs)
  | _, _ => return []

end

/-- Reads an object of any type. -/
def Handle.read (h : Handle) : Action Value := do
  let name ← takeText (← perform "data__object_type" "" [h.payload])
  match Descriptor.parse name with
  | .ok d => readObject d h.payload
  | .error why => throw (.unsupported (.unreadable why))

end PrivateRelease.Host
