import PrivateRelease.Boundary.Status
import PrivateRelease.Mechanism.Basic
import PrivateRelease.Scalar.Bytes

/-!
# Memory

What crosses the boundary is a word or a reference. A reference is modelled by the thing it refers
to, so it is never dangling; the null reference is the word `0`. A slice refers to a run of bytes,
of numbers, of slices or of references, or is null and only claims a length. Nothing says what it is
a run of: memory is read at any type by its bytes, as far as they are known. The address of a thing
is not known, but that of an empty run is its alignment.
-/

namespace PrivateRelease.Boundary

mutual

inductive Memory where
  | null (length : Nat)
  | bytes (bs : List UInt8)
  | numbers (q : Numeric) (xs : List q.Carrier)
  | slices (ms : List Memory)
  | references (rs : List (Option Reference))

inductive Reference where
  /-- A scalar at a fixed place. -/
  | slot (p : Primitive) (x : p.Carrier)
  | object (v : Value)
  | transformation (t : Transformation)
  | measurement (m : Measurement)
  | slice (m : Memory)
  /-- An owned slice that borrows the memory of an object. -/
  | view (m : Memory)
  | text (s : String)
  /-- An address at which nothing is known to be. -/
  | stray

end

namespace Memory

def length : Memory → Nat
  | null n => n
  | bytes bs => bs.length
  | numbers _ xs => xs.length
  | slices ms => ms.length
  | references rs => rs.length

def ofText (s : String) : Memory := bytes s.toUTF8.data.toList

def ofBools (bs : List Bool) : Memory := bytes (bs.map fun b => if b then 1 else 0)

def isNull : Memory → Bool
  | null _ => true
  | _ => false

/-- The address of the items must be a multiple of this. -/
def alignment : Memory → Nat
  | null _ => 1
  | bytes _ => 1
  | numbers q _ => q.width
  | slices _ => 8
  | references _ => 8

/-- The address of the items, if it is known. -/
def address? (m : Memory) : Option Nat :=
  if m.isNull then some 0 else if m.length = 0 then some m.alignment else none

/-- The bytes of the slice itself, its address and its length, if the address is known. -/
def header? (m : Memory) : Option (List UInt8) := do
  return Bytes.ofWord 8 (← m.address?) ++ Bytes.ofWord 8 m.length

/-- The bytes of slices that follow each other, up to the first that are not known. -/
def headers : List Memory → List UInt8
  | [] => []
  | m :: ms =>
    match m.header? with
    | some bs => bs ++ headers ms
    | none => []

/-- The bytes that a slice refers to, up to the first address that is not known. -/
def content : Memory → List UInt8
  | null _ => []
  | bytes bs => bs
  | numbers _ xs => xs.flatMap Numeric.toBytes
  | slices ms => headers ms
  | references rs => (rs.takeWhile Option.isNone).flatMap fun _ => Bytes.ofWord 8 0

/-! ## Runs of items -/

/-- As many bytes as the slice is long. -/
def bytes? (m : Memory) : Option (List UInt8) :=
  if m.length ≤ m.content.length then some (m.content.take m.length) else none

/-- As many numbers of a type as the slice is long. -/
def numbers? (q : Numeric) (m : Memory) : Option (List q.Carrier) :=
  q.listOfBytes? m.length m.content

def slices? : Memory → Option (List Memory)
  | slices ms => some ms
  | _ => none

/-- The references that bytes spell: zero is the null reference, anything else leads nowhere. -/
def referencesOfBytes : Nat → List UInt8 → List (Option Reference)
  | 0, _ => []
  | n + 1, bs =>
    (if bs.take 8 = Bytes.ofWord 8 0 then none else some .stray) ::
      referencesOfBytes n (bs.drop 8)

/-- As many references as the slice is long. -/
def references? : Memory → Option (List (Option Reference))
  | null _ => none
  | references rs => some rs
  | m => some (referencesOfBytes m.length m.content)

theorem bytes?_bytes (bs : List UInt8) : (bytes bs).bytes? = some bs := by
  simp [bytes?, content, length]

theorem numbers?_numbers {q : Numeric} (xs : List q.Carrier) :
    (numbers q xs).numbers? q = some xs :=
  Numeric.listOfBytes?_toBytes xs

end Memory

namespace Reference

/-- The bytes at a reference, as far as they are known. A text ends with a zero. -/
def content : Reference → List UInt8
  | slot _ x => Primitive.toBytes x
  | slice m => m.header?.getD []
  | view m => m.header?.getD []
  | text s => s.toUTF8.data.toList ++ [0]
  | object _ => []
  | transformation _ => []
  | measurement _ => []
  | stray => []

end Reference

inductive Payload where
  | word (w : UInt64)
  | reference (r : Reference)

namespace Payload

def null : Payload := word 0

instance : Inhabited Payload := ⟨null⟩

/-- The payload's bits. An address that is not known stands as one that is neither null nor near the
end of the word. -/
def bits : Payload → UInt64
  | word w => w
  | reference _ => .ofNat (2 ^ 46)

def bool (b : Bool) : Payload := word (if b then 1 else 0)

/-- The word of an integer, negative ones in two's complement. -/
def integer (n : Int) : Payload := word (UInt64.ofNat (n % 2 ^ 64).toNat)

def double (x : Binary .double) : Payload := word (UInt64.ofNat x.toBits)

/-- The lowest byte decides. -/
def toBool (p : Payload) : Bool := p.bits % 256 != 0

def toUnsigned (p : Payload) : Nat := p.bits.toNat

def toSigned (p : Payload) : Bounded .i64 := .clamp .i64 p.bits.toInt64.toInt

def toDouble (p : Payload) : Binary .double := .ofBits p.bits.toNat

/-- What the payload refers to; a word that is not zero leads nowhere. -/
def reference? : Payload → Option Reference
  | reference r => some r
  | word w => if w = 0 then none else some .stray

/-- Sixteen hexadecimal digits. -/
def bitsText (p : Payload) : String :=
  let digits := Nat.toDigits 16 p.bits.toNat
  "FfiPayload(0x" ++ String.ofList (List.replicate (16 - digits.length) '0' ++ digits) ++ ")"

/-! ## Reading references -/

variable {α : Type}

/-- What a payload refers to, named for the error if it is null. -/
def refer (p : Payload) (what : String) : Except CallError Reference :=
  match p.reference? with
  | some r => .ok r
  | none => .error (.nullPointer what)

def toTransformation (p : Payload) (what : String) : Except CallError Transformation := do
  match ← p.refer what with
  | .transformation t => .ok t
  | _ => .error (.misread what)

def toMeasurement (p : Payload) (what : String) : Except CallError Measurement := do
  match ← p.refer what with
  | .measurement m => .ok m
  | _ => .error (.misread what)

def toObject (p : Payload) (what : String) : Except CallError Value := do
  match ← p.refer what with
  | .object v => .ok v
  | _ => .error (.misread what)

/-- A view starts with its slice, so it can be read as one. -/
def toSlice (p : Payload) (what : String) : Except CallError Memory := do
  match ← p.refer what with
  | .slice m => .ok m
  | .view m => .ok m
  | _ => .error (.misread what)

/-- The scalar of type `s` at a fixed place, whatever was written there. -/
def toSlot (s : Primitive) (p : Payload) (what : String) : Except CallError s.Carrier := do
  match s.ofBytes? (← p.refer what).content with
  | some x => .ok x
  | none => .error (.misread what)

end Payload

end PrivateRelease.Boundary
