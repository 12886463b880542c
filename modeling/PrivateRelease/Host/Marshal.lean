import PrivateRelease.Boundary.Memory
import PrivateRelease.Host.Failure

/-!
# Marshalling

A host value of a given type as a payload word, as a scalar at a fixed place, or as memory from which
a native object can be made; and back. All three ways read scalars alike: integers have to be in
range, and floats may be given as integers.
-/

namespace PrivateRelease.Host

open Boundary (Memory Payload Reference)

namespace Value

def mismatch {α : Type} (v : Value) (d : Descriptor) : Except Failure α :=
  .error (.unmarshalled (.mismatch v d))

/-- The value, if a reader of values accepts it. -/
def demand {α : Type} (v : Value) (d : Descriptor) : Option α → Except Failure α
  | some x => .ok x
  | none => v.mismatch d

/-- The value as a number. A float goes through the nearest double. -/
def toNumeric (v : Value) : (q : Numeric) → Except Failure q.Carrier
  | .integer k => do
    let n ← v.demand (.integer k) v.int?
    match Bounded.ofInt? k n.val with
    | some n => return n
    | none => throw (.unmarshalled (.outOfRange n (.integer k)))
  | .float p => do
    let x ← v.demand (.float p) v.float?
    return Binary.convert x

def toScalar (v : Value) : (p : Primitive) → Except Failure p.Carrier
  | .bool => v.demand (.primitive .bool) v.bool?
  | .numeric q => v.toNumeric q
  | .string => v.demand (.primitive .string) v.text?

def toScalars (p : Primitive) : List Value → Except Failure (List p.Carrier)
  | [] => return []
  | v :: vs => do
    let x ← v.toScalar p
    return x :: (← toScalars p vs)

/-! ## Words and places -/

/-- A scalar in a payload word; a float of either precision travels as a double. -/
def toWord (v : Value) : Descriptor → Except Failure Payload
  | .primitive .bool => return .bool (← v.toScalar .bool)
  | .primitive (.numeric (.integer k)) =>
    return .integer (Bounded.val (← v.toNumeric (.integer k)))
  | .primitive (.numeric (.float p)) => return .double (← v.demand (.float p) v.float?)
  | d => .error (.unmarshalled (.notByValue d))

/-- A scalar at a fixed place. -/
def toSlot (v : Value) : Descriptor → Except Failure Reference
  | .primitive .bool => return .slot .bool (← v.toScalar .bool)
  | .primitive (.numeric q) => return .slot (.numeric q) (← v.toNumeric q)
  | d => .error (.unmarshalled (.notByReference d))

/-! ## Memory -/

def ofPrimitives (p : Primitive) (xs : List p.Carrier) : Memory :=
  match p, xs with
  | .bool, bs => .ofBools bs
  | .numeric q, xs => .numbers q xs
  | .string, ss => .slices (ss.map Memory.ofText)

mutual

/-- The value laid out as an object of the given type is read. -/
def toMemory : Descriptor → Value → Except Failure Memory
  | .primitive .string, v => return .ofText (← v.toScalar .string)
  | .primitive .bool, v => return .ofBools [← v.toScalar .bool]
  | .primitive (.numeric q), v => return .numbers q [← v.toNumeric q]
  | .tuple items, v => do
    let parts ← v.demand (.tuple items) v.tuple?
    if parts.length ≠ items.length then
      throw (.unmarshalled (.componentCount v parts.length (.tuple items) items.length))
    return .references (← toReferences items parts)
  | .generic name args, v =>
    match (Descriptor.generic name args).element? with
    | none => throw (.unsupported (.encodedValue (.generic name args)))
    | some element => do
      let items ← v.demand (.generic name args) v.list?
      match element with
      | .primitive p => return ofPrimitives p (← toScalars p items)
      | element => throw (.unsupported (.encodedVector element))

def toReferences : List Descriptor → List Value → Except Failure (List (Option Reference))
  | d :: ds, v :: vs => do
    let m ← toMemory d v
    return some (.slice m) :: (← toReferences ds vs)
  | _, _ => return []

end

/-! ## Back to host values -/

def ofUnsigned (n : Nat) : Except Failure Value :=
  match Bounded.ofInt? .i64 n with
  | some n => .ok (int n)
  | none => .error (.unmarshalled (.overflow n))

/-- The scalar as a host value. Only an integer above the host's own has none. -/
def ofScalar : (p : Primitive) → p.Carrier → Except Failure Value
  | .bool, b => .ok (bool b)
  | .numeric (.integer .i32), n => .ok (int (.clamp .i64 (Bounded.val n)))
  | .numeric (.integer .i64), n => .ok (int n)
  | .numeric (.integer .u32), n => .ok (int (.clamp .i64 (Bounded.val n)))
  | .numeric (.integer .u64), n => ofUnsigned (Bounded.val n).toNat
  | .numeric (.float _), x => .ok (float (Binary.convert x))
  | .string, s => .ok (text s)

def ofScalars (p : Primitive) : List p.Carrier → Except Failure (List Value)
  | [] => return []
  | x :: xs => do
    let v ← ofScalar p x
    return v :: (← ofScalars p xs)

/-- The scalar that a payload word holds. -/
def ofWord (w : Payload) : Descriptor → Except Failure Value
  | .primitive .bool => .ok (bool w.toBool)
  | .primitive (.numeric (.integer .i32)) => .ok (int w.toSigned)
  | .primitive (.numeric (.integer .i64)) => .ok (int w.toSigned)
  | .primitive (.numeric (.integer .u32)) => ofUnsigned w.toUnsigned
  | .primitive (.numeric (.integer .u64)) => ofUnsigned w.toUnsigned
  | .primitive (.numeric (.float _)) => .ok (float w.toDouble)
  | d => .error (.unmarshalled (.notReturned d))

end Value

end PrivateRelease.Host
