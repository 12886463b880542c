import PrivateRelease.Number.Arithmetic

/-!
# Exponential and logarithm near zero

`exp x - 1` and `ln (1 + x)`, accurate at every argument. A tiny argument is its own image. The
others are evaluated in fixed point, with so many more bits than the format has that rounding the
result once gives the number nearest to the exact value, but for freak arguments.
-/

namespace PrivateRelease

/-! ## Series in fixed point -/

namespace Fixed

/-- Bits after the point. -/
def bits : Nat := 400

def one : Int := 2 ^ bits

def mul (a b : Int) : Int := a * b / one

def div (a b : Int) : Int := a * one / b

/-- Terms enough for both series to converge. -/
def terms : Nat := 140

/-- `1 + x / i * (1 + x / (i + 1) * (1 + …))`, for `n` factors. -/
def nested (x : Int) : (n i : Nat) → Int
  | 0, _ => one
  | n + 1, i => one + mul x (nested x n (i + 1)) / i

/-- `exp (2 x) - 1`, from `exp x - 1`. -/
def doubled (e : Int) : Int := mul e (e + 2 * one)

def halvings : Nat := 12

/-- `exp x - 1`: the series at a small part of `x`, doubled back up. -/
def expm1 (x : Int) : Int :=
  let y := x / 2 ^ halvings
  Nat.repeat doubled halvings (mul y (nested y terms 2))

/-- `1 / i + s / (i + 2) + s² / (i + 4) + …`, for `n + 1` terms. -/
def oddSeries (s : Int) : (n i : Nat) → Int
  | 0, i => one / i
  | n + 1, i => one / i + mul s (oddSeries s n (i + 2))

/-- The logarithm of a number between `1` and `2`, by the inverse hyperbolic tangent. -/
def lnMantissa (m : Int) : Int :=
  let t := div (m - one) (m + one)
  2 * mul t (oddSeries (mul t t) terms 1)

def ln2 : Int := lnMantissa (2 * one)

/-- The logarithm of a positive number. -/
def ln (x : Nat) : Int :=
  let e := x.log2
  lnMantissa (x * 2 ^ bits / 2 ^ e : Nat) + (e - bits : Int) * ln2

end Fixed

namespace Binary

variable {p : Precision}

/-- The value of a finite number in fixed point. -/
def toFixed (p : Precision) (negative : Bool) (rank : Nat) : Int :=
  signedUnits p negative rank * Fixed.one / 2 ^ p.scale

def ofFixed (x : Int) : Binary p :=
  if x = 0 then zero false else rounded (decide (x < 0)) (x.natAbs * 2 ^ p.scale) (2 ^ Fixed.bits)

/-- Whether the number of a rank is so close to zero that its square does not count. -/
def isTiny (p : Precision) (rank : Nat) : Bool := p.units rank * 2 ^ 64 < 2 ^ p.scale

/-- `exp x - 1`. -/
def expm1 : Binary p → Binary p
  | nan s n _ => quietNaN s n
  | number s r h =>
    if isTiny p r then number s r h
    else if 2 ^ 10 * 2 ^ p.scale ≤ p.units r then (if s then -1 else infinite false)
    else ofFixed (Fixed.expm1 (toFixed p s r))

/-- `ln (1 + x)`. -/
def ln1p : Binary p → Binary p
  | nan s n _ => quietNaN s n
  | number s r h =>
    if isTiny p r then number s r h
    else if r = p.infinity then (if s then indefinite else infinite false)
    else
      match compare 0 (Fixed.one + toFixed p s r) with
      | .lt => ofFixed (Fixed.ln (Fixed.one + toFixed p s r).toNat)
      | .eq => infinite true
      | .gt => indefinite

theorem isTiny_zero (p : Precision) : isTiny p 0 = true := by
  rw [isTiny, Precision.units_zero, Nat.zero_mul]
  exact decide_eq_true (Nat.two_pow_pos _)

theorem expm1_zero (s : Bool) : (zero s : Binary p).expm1 = zero s := by
  simp [zero, expm1, isTiny_zero]

theorem ln1p_zero (s : Bool) : (zero s : Binary p).ln1p = zero s := by
  simp [zero, ln1p, isTiny_zero]

end Binary

end PrivateRelease
