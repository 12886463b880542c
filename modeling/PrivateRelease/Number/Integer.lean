/-!
# Bounded integers

The four integer types and their values, which carry the proof that they are in range. Arithmetic is
done on unbounded integers; `clamp` brings a result back.
-/

-- Powers are the built-in ones, whatever else is in scope.
attribute [instance (high), default_instance (high)] instPowNat

namespace PrivateRelease

inductive IntegerType where
  | i32
  | i64
  | u32
  | u64
  deriving DecidableEq, Repr

namespace IntegerType

def least : IntegerType → Int
  | i32 => -2 ^ 31
  | i64 => -2 ^ 63
  | u32 => 0
  | u64 => 0

def greatest : IntegerType → Int
  | i32 => 2 ^ 31 - 1
  | i64 => 2 ^ 63 - 1
  | u32 => 2 ^ 32 - 1
  | u64 => 2 ^ 64 - 1

theorem least_le_greatest (k : IntegerType) : k.least ≤ k.greatest := by
  cases k <;> decide

end IntegerType

/-- An integer of type `k`. -/
structure Bounded (k : IntegerType) where
  val : Int
  least_le : k.least ≤ val
  le_greatest : val ≤ k.greatest
  deriving DecidableEq

namespace Bounded

variable {k : IntegerType}

/-- The integer of type `k` nearest to `n`. -/
def clamp (k : IntegerType) (n : Int) : Bounded k where
  val := max k.least (min k.greatest n)
  least_le := Int.le_max_left _ _
  le_greatest := Int.max_le.2 ⟨k.least_le_greatest, Int.min_le_left _ _⟩

def ofInt? (k : IntegerType) (n : Int) : Option (Bounded k) :=
  if h : k.least ≤ n ∧ n ≤ k.greatest then some ⟨n, h.1, h.2⟩ else none

instance : Inhabited (Bounded k) := ⟨clamp k 0⟩

theorem ofInt?_val (n : Bounded k) : ofInt? k n.val = some n := by
  simp [ofInt?, n.least_le, n.le_greatest]

theorem clamp_val (n : Bounded k) : clamp k n.val = n := by
  have h₁ := n.least_le
  have h₂ := n.le_greatest
  cases n
  simp only [clamp, mk.injEq]
  simp only at h₁ h₂
  omega

end Bounded

end PrivateRelease
