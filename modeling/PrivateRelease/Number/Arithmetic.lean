import PrivateRelease.Number.Binary

/-!
# Rounded arithmetic

Every operation forms the exact result as a quotient of whole numbers of units and rounds it once,
to the nearest number. An operand that is a NaN is the result, made quiet; where numbers have no result
it is the indefinite NaN.
-/

namespace PrivateRelease

namespace Binary

variable {p q : Precision}

/-- The number nearest to `n` units; an exact zero gets the sign `zeroSign`. -/
def ofUnits (zeroSign : Bool) (n : Int) : Binary p :=
  if n = 0 then zero zeroSign else rounded (decide (n < 0)) n.natAbs 1

/-- The signed units of a finite number. -/
def signedUnits (p : Precision) (negative : Bool) (rank : Nat) : Int :=
  if negative then -(p.units rank : Int) else p.units rank

def add : Binary p → Binary p → Binary p
  | nan s n _, _ => quietNaN s n
  | number .., nan t n _ => quietNaN t n
  | number s r h, number t k h' =>
    if r = p.infinity then
      if k = p.infinity && s != t then indefinite else number s r h
    else if k = p.infinity then number t k h'
    else ofUnits (s && t) (signedUnits p s r + signedUnits p t k)

def sub (a b : Binary p) : Binary p := a.add b.neg

def mul : Binary p → Binary p → Binary p
  | nan s n _, _ => quietNaN s n
  | number .., nan t n _ => quietNaN t n
  | number s r _, number t k _ =>
    if r = p.infinity || k = p.infinity then
      if r = 0 || k = 0 then indefinite else infinite (s != t)
    else rounded (s != t) (p.units r * p.units k) (2 ^ p.scale)

def div : Binary p → Binary p → Binary p
  | nan s n _, _ => quietNaN s n
  | number .., nan t n _ => quietNaN t n
  | number s r _, number t k _ =>
    if r = p.infinity then
      if k = p.infinity then indefinite else infinite (s != t)
    else if k = p.infinity then zero (s != t)
    else if k = 0 then
      if r = 0 then indefinite else infinite (s != t)
    else rounded (s != t) (p.units r * 2 ^ p.scale) (p.units k)

/-- The natural number nearest to the square root of `n / 4 ^ e`. -/
def rootNearest (n e : Nat) : Nat :=
  let root := (n / 4 ^ e).sqrt
  if (2 * root + 1) * (2 * root + 1) * 4 ^ e < 4 * n then root + 1 else root

def sqrt : Binary p → Binary p
  | nan s n _ => quietNaN s n
  | number s r h =>
    if r = 0 then number s r h
    else if s then indefinite
    else if r = p.infinity then number s r h
    else
      let n := p.units r * 2 ^ p.scale
      let e := n.sqrt.log2 - p.fractionBits
      ofRank false (e * p.binade + rootNearest n e)

instance : Add (Binary p) := ⟨add⟩
instance : Sub (Binary p) := ⟨sub⟩
instance : Mul (Binary p) := ⟨mul⟩
instance : Div (Binary p) := ⟨div⟩
instance : Neg (Binary p) := ⟨neg⟩

/-! ## Conversions -/

/-- The number nearest to a whole number. -/
def ofInt (n : Int) : Binary p :=
  if n = 0 then zero false else rounded (decide (n < 0)) (n.natAbs * 2 ^ p.scale) 1

def ofNat (n : Nat) : Binary p := ofInt n

instance {n : Nat} : OfNat (Binary p) n := ⟨ofNat n⟩

/-- The number of a precision that is nearest. A NaN of another precision keeps the upper bits of its
fraction. -/
def convert : Binary p → Binary q
  | nan s n h =>
    if hq : p = q then nan s n (hq ▸ h) else quietNaN s (n * q.binade / p.binade)
  | number s r _ =>
    if r = p.infinity then infinite s
    else rounded s (p.units r * 2 ^ q.scale) (2 ^ p.scale)

/-- The whole number at or below the argument, held within `[lower, upper]`; `0` for NaN. -/
def floorWithin (lower upper : Int) : Binary p → Int
  | nan .. => 0
  | number s r _ =>
    if r = p.infinity then (if s then lower else upper)
    else Max.max lower (Min.min upper (signedUnits p s r / 2 ^ p.scale))

/-- Left to right, starting from negative zero, so that the sum of nothing is `-0`. -/
def sum (xs : List (Binary p)) : Binary p := xs.foldl (· + ·) (zero true)

/-- The single-precision number nearest to `x`, moved one rank up the line if it is below `x`. -/
def singleUp (x : Binary .double) : Binary .single :=
  let y : Binary .single := x.convert
  if x.le y.convert then y
  else
    match y with
    | nan s n h => nan s n h
    | number s r _ =>
      if r = 0 then ofRank false 1
      else if s then ofRank true (r - 1)
      else ofRank false (r + 1)

/-- `x` in precision `p`, never rounded down. -/
def roundUp : (p : Precision) → Binary .double → Binary p
  | .single, x => singleUp x
  | .double, x => x

theorem sum_nil : (sum [] : Binary p) = zero true := rfl

end Binary

end PrivateRelease
