import PrivateRelease.Boundary.Memory

/-!
# Objects and memory

`toValue` copies the caller's memory into an object of a given type; `ofValue` views an object as
memory. A string is its bytes, a vector of strings a run of slices. A tuple is read from references
to slices and viewed as references to its components.
-/

namespace PrivateRelease.Boundary

namespace Memory

/-- The one item of a scalar slice. -/
def scalarOf {α : Type} (m : Memory) (items : Option (List α)) : Except CallError α :=
  if m.length ≠ 1 then .error (.failed (.badArgument (.scalarCount m.length)))
  else
    match m, items with
    | null _, _ => .error (.nullPointer "slice")
    | _, some [x] => .ok x
    | _, _ => .error (.misread "slice")

/-- The items of a slice of any length, named for the error; an empty slice may be null. -/
def itemsOf {α : Type} (m : Memory) (name : String) (items : Option (List α)) :
    Except CallError (List α) :=
  if m.length = 0 then .ok []
  else
    match m, items with
    | null _, _ => .error (.nullPointer name)
    | _, some xs => .ok xs
    | _, none => .error (.misread name)

def toText (m : Memory) : Except CallError String := do
  match String.fromUTF8? ⟨(← m.itemsOf "slice" m.bytes?).toArray⟩ with
  | some s => .ok s
  | none => .error (.invalidUtf8 "string slice")

def toScalar (m : Memory) : (p : Primitive) → Except CallError p.Carrier
  | .bool => do return (← m.scalarOf m.bytes?) != 0
  | .numeric q => m.scalarOf (m.numbers? q)
  | .string => m.toText

def toVector (m : Memory) : (p : Primitive) → Except CallError (List p.Carrier)
  | .bool => do return (← m.itemsOf "slice" m.bytes?).map fun b => (b != 0 : Bool)
  | .numeric q => m.itemsOf "slice" (m.numbers? q)
  | .string => do (← m.itemsOf "slice" m.slices?).mapM toText

mutual

/-- An object of type `d` from the caller's memory. -/
def toValue : Descriptor → Memory → Except CallError Value
  | .primitive p, m => do return .scalar p (← m.toScalar p)
  | .tuple items, m =>
    if m.length ≠ items.length then
      .error (.failed (.badArgument (.componentCount (.tuple items) items.length m.length)))
    else do return .tuple (← toValues items (← m.itemsOf "slice" m.references?))
  | .generic name args, m =>
    match (Descriptor.generic name args).element? with
    | some (.primitive p) => do return .vector p (← m.toVector p)
    | _ => .error (.failed (.missing (.boxing (.generic name args))))

/-- The components of a tuple from references to slices. -/
def toValues : List Descriptor → List (Option Reference) → Except CallError (List Value)
  | d :: ds, r :: rs =>
    match r with
    | none => .error (.nullPointer "tuple component")
    | some (.slice m) => do
      let v ← toValue d m
      return v :: (← toValues ds rs)
    | some (.view m) => do
      let v ← toValue d m
      return v :: (← toValues ds rs)
    | some _ => .error (.misread "tuple component")
  | _, _ => .ok []

end

def ofScalar : (p : Primitive) → p.Carrier → Memory
  | .bool, b => ofBools [b]
  | .numeric q, x => numbers q [x]
  | .string, s => ofText s

def ofVector : (p : Primitive) → List p.Carrier → Memory
  | .bool, bs => ofBools bs
  | .numeric q, xs => numbers q xs
  | .string, ss => slices (ss.map ofText)

/-- A view of an object's memory. Curves have none. -/
def ofValue : Value → Except Error Memory
  | .scalar p x => .ok (ofScalar p x)
  | .vector p xs => .ok (ofVector p xs)
  | .tuple items => .ok (references (items.map fun v => some (.object v)))
  | .curve _ => .error (.badCast .curveView)

end Memory

end PrivateRelease.Boundary
