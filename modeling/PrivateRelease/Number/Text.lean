import PrivateRelease.Number.Arithmetic
import PrivateRelease.Number.Decimal

/-!
# Written numbers

Two ways of writing a number differ in their `Layout`: values in displays keep `.0` on whole
numbers and turn to an exponent far from one; numbers inside sentences are always written out.
-/

namespace PrivateRelease

/-- Decisions of a way of writing numbers. -/
structure Layout where
  /-- The least and greatest exponents of the leading digit that are written out in full. -/
  positional : Option (Int × Int)
  /-- Whether a whole number ends in `.0`. -/
  wholePoint : Bool

namespace Layout

/-- Written out between `0.0001` and `10^16`, always visibly a float. -/
def value : Layout := ⟨some (-4, 15), true⟩

/-- Written out at any size, with no decoration. -/
def sentence : Layout := ⟨none, false⟩

def writesOut (l : Layout) (exponent : Int) : Bool :=
  match l.positional with
  | none => true
  | some (low, high) => low ≤ exponent && exponent ≤ high

end Layout

namespace Decimal

def digits (d : Decimal) : List Char := Nat.toDigits 10 d.significand

/-- The exponent of the leading digit. -/
def order (d : Decimal) : Int := d.exponent + (d.digits.length - 1 : Nat)

/-- One digit, a point before the rest, and the exponent. -/
def scientific (d : Decimal) : String :=
  let rest := d.digits.drop 1
  let point := if rest.isEmpty then [] else '.' :: rest
  String.ofList (d.digits.take 1 ++ point) ++ "e" ++ toString d.order

def positional (d : Decimal) (wholePoint : Bool) : String :=
  let ds := d.digits
  let e := d.order
  let tail := if wholePoint then ['.', '0'] else []
  if e < 0 then
    String.ofList (['0', '.'] ++ List.replicate (e.natAbs - 1) '0' ++ ds)
  else
    let whole := e.toNat + 1
    if ds.length ≤ whole then
      String.ofList (ds ++ List.replicate (whole - ds.length) '0' ++ tail)
    else String.ofList (ds.take whole ++ ['.'] ++ ds.drop whole)

def write (l : Layout) (d : Decimal) : String :=
  if l.writesOut d.order then d.positional l.wholePoint else d.scientific

end Decimal

namespace Binary

variable {p : Precision}

/-- A number in the given layout, by its shortest digits. -/
def write (l : Layout) : Binary p → String
  | nan .. => "NaN"
  | number s r _ =>
    let sign := if s then "-" else ""
    if r = 0 then sign ++ (if l.wholePoint then "0.0" else "0")
    else if r = p.infinity then sign ++ "inf"
    else sign ++ (Decimal.shortest p r).write l

/-- As a value, such as `10.0`, `-0.0`, `1e16` or `NaN`. -/
def toText (x : Binary p) : String := x.write .value

/-- In a sentence, such as `10`, `-0` or `0.00001`. -/
def inSentence (x : Binary p) : String := x.write .sentence

/-- In scientific form with `n` significant digits; zero, NaN and the infinities as values. -/
def toScientific (n : Nat) : Binary p → String
  | nan .. => "NaN"
  | number s r h =>
    if r = 0 || r = p.infinity then (number s r h).toText
    else (if s then "-" else "") ++ (Decimal.significant p r n).scientific

/-! ## Reading -/

/-- Splits off a leading run of digits. -/
def spanDigits (cs : List Char) : List Char × List Char :=
  (cs.takeWhile Char.isDigit, cs.dropWhile Char.isDigit)

def digitsToNat (cs : List Char) : Nat :=
  cs.foldl (fun n c => 10 * n + (c.toNat - '0'.toNat)) 0

def splitSign : List Char → Bool × List Char
  | '-' :: cs => (true, cs)
  | '+' :: cs => (false, cs)
  | cs => (false, cs)

/-- The exponent part of a numeral, zero if there is none. -/
def readExponent? : List Char → Option Int
  | [] => some 0
  | c :: cs =>
    if c = 'e' || c = 'E' then
      let (negative, cs) := splitSign cs
      let (ds, rest) := spanDigits cs
      if ds.isEmpty || !rest.isEmpty then none
      else some (if negative then -(digitsToNat ds : Int) else digitsToNat ds)
    else none

end Binary

open Binary in
/-- The decimal of a numeral without a sign. -/
def Decimal.ofNumeral? (cs : List Char) : Option Decimal :=
  let (whole, rest) := spanDigits cs
  let (fraction, rest) :=
    match rest with
    | '.' :: rest => spanDigits rest
    | rest => ([], rest)
  if whole.isEmpty && fraction.isEmpty then none
  else (readExponent? rest).map fun e => ⟨digitsToNat (whole ++ fraction), e - fraction.length⟩

namespace Binary

variable {p : Precision}

/-- Beyond this order of magnitude a numeral is infinite, or zero, in both precisions. -/
def extremeOrder : Nat := 400

/-- The number nearest to `d`, of the given sign. -/
def ofDecimal (negative : Bool) (d : Decimal) : Binary p :=
  if d.significand = 0 || d.order < -(extremeOrder : Int) then zero negative
  else if (extremeOrder : Int) < d.order then infinite negative
  else if d.exponent < 0 then
    rounded negative (d.significand * 2 ^ p.scale) (10 ^ d.exponent.natAbs)
  else rounded negative (d.significand * 10 ^ d.exponent.natAbs * 2 ^ p.scale) 1

/-- Reads a decimal numeral, `inf`, `infinity` or `nan` in any case, rounding once. -/
def read? (text : String) : Option (Binary p) :=
  let (negative, cs) := splitSign text.toList
  let name := String.ofList (cs.map Char.toLower)
  if name = "inf" || name = "infinity" then some (infinite negative)
  else if name = "nan" then some (quietNaN negative 0)
  else (Decimal.ofNumeral? cs).map (ofDecimal negative)

end Binary

end PrivateRelease
