/-!
# The two binary formats

A non-negative finite number of a format is a whole multiple of the format's smallest positive
number. Ordered by size these numbers have ranks `0, 1, 2, …`; infinity has the rank after the
largest finite one. `units` says which multiple a rank stands for, and `nearest` rounds a quotient
of natural numbers, measured in the same unit, to a rank.
-/

-- Powers are the built-in ones, whatever else is in scope.
attribute [instance (high), default_instance (high)] instPowNat

namespace PrivateRelease

inductive Precision where
  | single
  | double
  deriving DecidableEq, Repr

namespace Precision

/-- Bits of the fraction field. -/
def fractionBits : Precision → Nat
  | single => 23
  | double => 52

def exponentBits : Precision → Nat
  | single => 8
  | double => 11

/-- The smallest positive number is `2 ^ -scale`. -/
def scale : Precision → Nat
  | single => 149
  | double => 1074

/-- The rank of one binade's worth of numbers. -/
def binade (p : Precision) : Nat := 2 ^ p.fractionBits

/-- The highest bit of the fraction field. -/
def quietBit (p : Precision) : Nat := 2 ^ (p.fractionBits - 1)

/-- The rank of infinity. -/
def infinity (p : Precision) : Nat := (2 ^ p.exponentBits - 1) * p.binade

/-- Doublings of the unit between neighbours of rank `rank`. -/
def step (p : Precision) (rank : Nat) : Nat := rank / p.binade - 1

/-- The number of rank `rank`, as a multiple of the smallest positive number. -/
def units (p : Precision) (rank : Nat) : Nat :=
  (rank - p.step rank * p.binade) * 2 ^ p.step rank

/-- The quotient rounded to the nearest natural number, a tie to the even one. -/
def roundEven (num den : Nat) : Nat :=
  let q := num / den
  match compare (2 * (num % den)) den with
  | .lt => q
  | .eq => q + q % 2
  | .gt => q + 1

/-- The rank nearest to `num / den` units, a tie to the even rank. What lies half a step or more
beyond the largest finite number goes to infinity. -/
def nearest (p : Precision) (num den : Nat) : Nat :=
  let e := (num / den).log2 - p.fractionBits
  min (e * p.binade + roundEven num (den * 2 ^ e)) p.infinity

theorem binade_pos (p : Precision) : 0 < p.binade := Nat.two_pow_pos _

theorem quietBit_pos (p : Precision) : 0 < p.quietBit := Nat.two_pow_pos _

theorem quietBit_add_quietBit (p : Precision) : p.quietBit + p.quietBit = p.binade := by
  cases p <;> decide

theorem units_zero (p : Precision) : p.units 0 = 0 := by simp [units, step]

theorem nearest_le (p : Precision) (num den : Nat) : p.nearest num den ≤ p.infinity :=
  Nat.min_le_right _ _

end Precision

end PrivateRelease
