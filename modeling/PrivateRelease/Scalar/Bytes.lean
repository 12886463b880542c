import PrivateRelease.Number.Interchange
import PrivateRelease.Scalar

/-!
# Scalars as bytes

A scalar other than a string takes a fixed number of bytes, the lowest first: an integer in two's
complement, a float as its interchange word, a truth value as one byte. Any run of so many bytes is
a scalar, so what was written at one type can be read at another; read at its own type it is what
was written.
-/

namespace PrivateRelease

namespace Bytes

/-- The `n` lowest bytes of a word, the lowest first. -/
def ofWord : Nat → Nat → List UInt8
  | 0, _ => []
  | n + 1, w => UInt8.ofNat w :: ofWord n (w / 256)

def toWord : List UInt8 → Nat
  | [] => 0
  | b :: bs => b.toNat + 256 * toWord bs

theorem length_ofWord (n w : Nat) : (ofWord n w).length = n := by
  induction n generalizing w with
  | zero => rfl
  | succ n ih => simp [ofWord, ih]

theorem toWord_ofWord (n w : Nat) : toWord (ofWord n w) = w % 256 ^ n := by
  induction n generalizing w with
  | zero => simp [ofWord, toWord, Nat.mod_one]
  | succ n ih =>
    rw [ofWord, toWord, ih, UInt8.toNat_ofNat']
    show w % 256 + 256 * (w / 256 % 256 ^ n) = w % 256 ^ (n + 1)
    rw [Nat.pow_succ', Nat.mod_mul]

end Bytes

namespace Numeric

/-- The number of bytes that a scalar takes. -/
def width : Numeric → Nat
  | integer .i32 => 4
  | integer .u32 => 4
  | float .single => 4
  | integer .i64 => 8
  | integer .u64 => 8
  | float .double => 8

def toWord : {q : Numeric} → q.Carrier → Nat
  | integer k, x => (Bounded.val x % 256 ^ (integer k).width).toNat
  | float _, x => Binary.toBits x

def ofWord : (q : Numeric) → Nat → q.Carrier
  | integer k, w =>
    .clamp k (if (w : Int) ≤ k.greatest then w else w - 256 ^ (integer k).width)
  | float _, w => Binary.ofBits w

def toBytes {q : Numeric} (x : q.Carrier) : List UInt8 := Bytes.ofWord q.width (toWord x)

/-- The scalar at the start of some bytes, if they are enough. -/
def ofBytes? (q : Numeric) (bs : List UInt8) : Option q.Carrier :=
  let first := bs.take q.width
  if first.length = q.width then some (q.ofWord (Bytes.toWord first)) else none

/-- The first `n` scalars of some bytes. -/
def listOfBytes? (q : Numeric) : Nat → List UInt8 → Option (List q.Carrier)
  | 0, _ => some []
  | n + 1, bs => do
    let x ← q.ofBytes? bs
    return x :: (← q.listOfBytes? n (bs.drop q.width))

theorem length_toBytes {q : Numeric} (x : q.Carrier) : (toBytes x).length = q.width :=
  Bytes.length_ofWord _ _

theorem toWord_lt {q : Numeric} (x : q.Carrier) : toWord x < 256 ^ q.width := by
  rcases q with k | p
  · have h := Int.emod_lt_of_pos (Bounded.val x) (show (0 : Int) < 256 ^ (integer k).width by
      cases k <;> decide)
    simp only [toWord]
    cases k <;> simp only [width] at h ⊢ <;> omega
  · have h := Binary.toBits_lt x
    cases p <;> exact h

theorem ofWord_toWord {q : Numeric} (x : q.Carrier) : q.ofWord (toWord x) = x := by
  rcases q with k | p
  · have h₁ := Bounded.least_le x
    have h₂ := Bounded.le_greatest x
    have h : (if (toWord x : Int) ≤ k.greatest then (toWord x : Int)
        else toWord x - 256 ^ (integer k).width) = Bounded.val x := by
      cases k <;> simp only [toWord, width, IntegerType.least, IntegerType.greatest] at h₁ h₂ ⊢ <;>
        omega
    simp only [ofWord, h, Bounded.clamp_val]
  · exact Binary.ofBits_toBits x

theorem ofBytes?_toBytes {q : Numeric} (x : q.Carrier) (bs : List UInt8) :
    q.ofBytes? (toBytes x ++ bs) = some x := by
  have h : (toBytes x ++ bs).take q.width = toBytes x := by
    rw [← length_toBytes x, List.take_left]
  have hw : Bytes.toWord (toBytes x) = toWord x := by
    rw [toBytes, Bytes.toWord_ofWord, Nat.mod_eq_of_lt (toWord_lt x)]
  simp only [ofBytes?, h, length_toBytes, hw, ofWord_toWord, if_true]

theorem listOfBytes?_toBytes {q : Numeric} (xs : List q.Carrier) :
    q.listOfBytes? xs.length (xs.flatMap toBytes) = some xs := by
  induction xs with
  | nil => rfl
  | cons x xs ih =>
    rw [List.length_cons, List.flatMap_cons, listOfBytes?, ofBytes?_toBytes,
      ← length_toBytes x, List.drop_left]
    simp [ih]

end Numeric

namespace Primitive

/-- The bytes of a scalar at a fixed place. A string has no fixed place. -/
def toBytes : {p : Primitive} → p.Carrier → List UInt8
  | bool, x => [if (x : Bool) then 1 else 0]
  | numeric _, x => Numeric.toBytes x
  | string, _ => []

/-- The scalar at the start of some bytes. Every byte but zero is true. -/
def ofBytes? : (p : Primitive) → List UInt8 → Option p.Carrier
  | bool, bs => bs.head?.map fun b => (b != 0 : Bool)
  | numeric q, bs => q.ofBytes? bs
  | string, _ => none

theorem ofBytes?_toBytes {p : Primitive} (h : p ≠ .string) (x : p.Carrier) :
    p.ofBytes? (toBytes x) = some x := by
  rcases p with _ | q | _
  · rcases x <;> rfl
  · have hx := Numeric.ofBytes?_toBytes x []
    rwa [List.append_nil] at hx
  · exact absurd rfl h

end Primitive

end PrivateRelease
