import PrivateRelease.Number.Precision

/-!
# Binary floating-point numbers

A number is a sign and a rank. Zero has two signs. There are many NaNs, each with a sign and a
fraction that only the interchange word shows. Comparison is by position on the line of ranks, so
the zeros are equal and a NaN is comparable with nothing.
-/

namespace PrivateRelease

open Precision

inductive Binary (p : Precision) where
  | nan (negative : Bool) (fraction : Nat) (bounded : 0 < fraction ∧ fraction < p.binade)
  | number (negative : Bool) (rank : Nat) (bounded : rank ≤ p.infinity)
  deriving DecidableEq

namespace Binary

variable {p : Precision}

/-- The number of a sign and a rank; ranks beyond infinity are infinity. -/
def ofRank (negative : Bool) (rank : Nat) : Binary p :=
  .number negative (min rank p.infinity) (Nat.min_le_right _ _)

/-- The number nearest to `num / den` units, of the given sign. -/
def rounded (negative : Bool) (num den : Nat) : Binary p :=
  .number negative (p.nearest num den) (p.nearest_le num den)

def zero (negative : Bool) : Binary p := .number negative 0 (Nat.zero_le _)

def infinite (negative : Bool) : Binary p := .number negative p.infinity (Nat.le_refl _)

/-- A NaN as operations give it: the highest bit of its fraction is set, the others are kept. -/
def quietNaN (negative : Bool) (fraction : Nat) : Binary p :=
  .nan negative (fraction % p.quietBit + p.quietBit)
    ⟨Nat.add_pos_right _ p.quietBit_pos,
      p.quietBit_add_quietBit ▸ Nat.add_lt_add_right (Nat.mod_lt _ p.quietBit_pos) _⟩

/-- What an operation on numbers gives where it has no result. -/
def indefinite : Binary p := quietNaN true 0

instance : Inhabited (Binary p) := ⟨zero false⟩

def isNaN : Binary p → Bool
  | nan .. => true
  | number .. => false

def isInfinite : Binary p → Bool
  | nan .. => false
  | number _ r _ => r == p.infinity

def isFinite : Binary p → Bool
  | nan .. => false
  | number _ r _ => r != p.infinity

def isZero : Binary p → Bool
  | nan .. => false
  | number _ r _ => r == 0

/-- The sign bit. -/
def isNegative : Binary p → Bool
  | nan s _ _ => s
  | number s _ _ => s

/-- The signed multiple of the smallest positive number; none for NaN and the infinities. -/
def units? : Binary p → Option Int
  | nan .. => none
  | number s r _ =>
    if r = p.infinity then none
    else some (if s then -(p.units r : Int) else p.units r)

/-- The place on the line of ranks: negative numbers to the left, both zeros at `0`. -/
def position : Binary p → Option Int
  | nan .. => none
  | number s r _ => some (if s then -(r : Int) else r)

/-- The order of two numbers, none if one is NaN. -/
def order (a b : Binary p) : Option Ordering :=
  match a.position, b.position with
  | some x, some y => some (compare x y)
  | _, _ => none

def le (a b : Binary p) : Bool :=
  match a.position, b.position with
  | some x, some y => decide (x ≤ y)
  | _, _ => false

def lt (a b : Binary p) : Bool :=
  match a.position, b.position with
  | some x, some y => decide (x < y)
  | _, _ => false

/-- Numeric equality: the zeros are equal, NaN equals nothing. -/
def same (a b : Binary p) : Bool :=
  match a.position, b.position with
  | some x, some y => decide (x = y)
  | _, _ => false

def neg : Binary p → Binary p
  | nan s n h => nan (!s) n h
  | number s r h => number (!s) r h

def abs : Binary p → Binary p
  | nan _ n h => nan false n h
  | number _ r h => number false r h

/-- The smaller number, of equal ones the second; NaN only if both are NaN. -/
def min (a b : Binary p) : Binary p :=
  if a.isNaN then b else if b.isNaN then a else if a.lt b then a else b

/-- The larger number, of equal ones the second; NaN only if both are NaN. -/
def max (a b : Binary p) : Binary p :=
  if a.isNaN then b else if b.isNaN then a else if b.lt a then a else b

theorem position_zero (s : Bool) : (zero s : Binary p).position = some 0 := by
  cases s <;> simp [zero, position]

end Binary

end PrivateRelease
