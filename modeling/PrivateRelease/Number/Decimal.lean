import PrivateRelease.Number.Binary

/-!
# Decimal digits of a binary number

`shortest` gives the fewest decimal digits that still round to the number they came from, and of
those the nearest to it. `significant` gives a fixed count of digits, a tie going to the even
neighbour. Both work on exact quotients of natural numbers.
-/

namespace PrivateRelease

/-- The decimal number `significand * 10 ^ exponent`. -/
structure Decimal where
  significand : Nat
  exponent : Int
  deriving DecidableEq, Repr

namespace Decimal

/-- The count of decimal digits of a natural number, `1` for zero. -/
def length (n : Nat) : Nat := (Nat.toDigits 10 n).length

/-- The exponent of the leading decimal digit of the positive quotient `num / den`. -/
def leading (num den : Nat) : Int :=
  if den ≤ num then (length (num / den) : Int) - 1
  else -(length ((den + num - 1) / num - 1) : Int)

/-- `num / den / 10 ^ k` as a numerator and a denominator. -/
def scaled (num den : Nat) (k : Int) : Nat × Nat :=
  if k < 0 then (num * 10 ^ k.natAbs, den) else (num, den * 10 ^ k.natAbs)

/-- Whether `d * 10 ^ k` rounds to the number of rank `rank`: it lies between the midpoints to the
two neighbours, which themselves belong to an even rank. -/
def roundsTo (p : Precision) (rank : Nat) (d : Nat) (k : Int) : Bool :=
  let (up, down) := if k < 0 then (1, 10 ^ k.natAbs) else (10 ^ k.natAbs, 1)
  let twice := d * up * 2 ^ (p.scale + 1)
  let low := (p.units (rank - 1) + p.units rank) * down
  let high := (p.units rank + p.units (rank + 1)) * down
  if rank % 2 = 0 then low ≤ twice && twice ≤ high else low < twice && twice < high

/-- The `n`-digit decimal that rounds to the number of rank `rank`, if there is one: of the two
decimals around the number the nearer, of two equally near the larger. -/
def withDigits? (p : Precision) (rank : Nat) (n : Nat) : Option Decimal :=
  let k := leading (p.units rank) (2 ^ p.scale) + 1 - n
  let (num, den) := scaled (p.units rank) (2 ^ p.scale) k
  let below := num / den
  match roundsTo p rank below k, roundsTo p rank (below + 1) k with
  | true, true => some ⟨if 2 * num < (2 * below + 1) * den then below else below + 1, k⟩
  | true, false => some ⟨below, k⟩
  | false, true => some ⟨below + 1, k⟩
  | false, false => none

/-- No number needs more digits. -/
def mostDigits : Nat := 17

/-- Moves trailing zeros of the significand into the exponent. -/
def trimmed (d : Decimal) : Decimal :=
  let digits := Nat.toDigits 10 d.significand
  let zeros := (digits.reverse.takeWhile (· == '0')).length
  ⟨d.significand / 10 ^ zeros, d.exponent + zeros⟩

/-- The shortest decimal that rounds to the positive finite number of rank `rank`. -/
def shortest (p : Precision) (rank : Nat) : Decimal :=
  (((List.range mostDigits).findSome? fun n => withDigits? p rank (n + 1)).getD ⟨0, 0⟩).trimmed

/-- The number of rank `rank` to `n` significant digits, with the exponent of the leading one. -/
def significant (p : Precision) (rank n : Nat) : Decimal :=
  let k := leading (p.units rank) (2 ^ p.scale) + 1 - n
  let (num, den) := scaled (p.units rank) (2 ^ p.scale) k
  let d := Precision.roundEven num den
  if d = 10 ^ n then ⟨10 ^ (n - 1), k + 1⟩ else ⟨d, k⟩

end Decimal

end PrivateRelease
