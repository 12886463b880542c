import Mathlib.Order.Bounds.Defs
import Mathlib.Order.WithBot
import PrivateRelease.Proofs.Number.Narrowing
import PrivateRelease.Number.Interchange

/-!
# Rounding up

Rounding a double up gives the least single-precision number that is not below it, the infinities
counted among the numbers. Nothing about the digits is needed for that: narrowing keeps the order and
undoes widening, so the nearest number is the wanted one or the one before it on the line, and one
step along the line is one step of the interchange word.
-/

namespace PrivateRelease

namespace Binary

open Precision

variable {p q : Precision} {x y : Binary p} {r k : Nat}

protected theorem le_refl (hx : x.isNaN = false) : x.le x := by
  obtain ⟨i, hi⟩ := exists_position hx
  exact Binary.le_iff.mpr ⟨i, i, hi, hi, Int.le_refl i⟩

protected theorem le_trans {z : Binary p} (h : x.le y) (h' : y.le z) : x.le z := by
  obtain ⟨i, j, hi, hj, hij⟩ := Binary.le_iff.mp h
  obtain ⟨j', k, hj', hk, hjk⟩ := Binary.le_iff.mp h'
  cases hj.symm.trans hj'
  exact Binary.le_iff.mpr ⟨i, k, hi, hk, Int.le_trans hij hjk⟩

protected theorem le_total (hx : x.isNaN = false) (hy : y.isNaN = false) : x.le y ∨ y.le x := by
  obtain ⟨i, hi⟩ := exists_position hx
  obtain ⟨j, hj⟩ := exists_position hy
  simp only [Binary.le, hi, hj, decide_eq_true_eq]
  exact Int.le_total i j

/-! ## Values on the extended line -/

/-- The exact value among the rational numbers and both infinities; a NaN has none. -/
def value? : Binary p → Option (WithBot (WithTop ℚ))
  | nan .. => none
  | number s r h =>
    if r = p.infinity then some (if s then ⊥ else ⊤)
    else some ((number s r h).toRat : WithTop ℚ)

theorem value?_of_isFinite (hx : x.isFinite) : x.value? = some (x.toRat : WithTop ℚ) := by
  obtain ⟨s, r, bound, finite, rfl⟩ := exists_of_isFinite hx
  exact if_neg finite

theorem value?_infinite (s : Bool) : (infinite s : Binary p).value? = some (if s then ⊥ else ⊤) :=
  if_pos rfl

theorem exists_value (hx : x.isNaN = false) : ∃ v, x.value? = some v := by
  cases x with
  | nan => cases hx
  | number s r h =>
    rw [value?]
    split
    · exact ⟨_, rfl⟩
    · exact ⟨_, rfl⟩

theorem isNaN_of_value {v : WithBot (WithTop ℚ)} (hx : x.value? = some v) : x.isNaN = false := by
  cases x with
  | nan => cases hx
  | number => rfl

/-- A number is an infinity or finite. -/
theorem infinite_or_isFinite (hx : x.isNaN = false) : (∃ s, x = infinite s) ∨ x.isFinite := by
  cases x with
  | nan => cases hx
  | number s r h =>
    by_cases top : r = p.infinity
    · subst top
      exact .inl ⟨s, rfl⟩
    · exact .inr (isFinite_number.mpr top)

theorem infinite_le (hx : x.isNaN = false) : (infinite true).le x ∧ x.le (infinite false) := by
  cases x with
  | nan => cases hx
  | number s r h => cases s <;> simp [infinite, Binary.le, position] <;> omega

theorem not_le_infinite (hx : x.isFinite) : ¬(infinite false).le x ∧ ¬x.le (infinite true) := by
  obtain ⟨s, r, bound, finite, rfl⟩ := exists_of_isFinite hx
  cases s <;> simp [infinite, Binary.le, position] <;> omega

theorem not_infinite_le_infinite (p : Precision) :
    ¬(infinite false : Binary p).le (infinite true) := by
  simpa [infinite, Binary.le, position] using Nat.ne_of_gt p.infinity_pos

/-- The order of numbers is that of their values. -/
theorem value_le_iff {v w : WithBot (WithTop ℚ)} (hx : x.value? = some v) (hy : y.value? = some w) :
    v ≤ w ↔ x.le y := by
  have number := isNaN_of_value hx
  have number' := isNaN_of_value hy
  rcases infinite_or_isFinite number with ⟨s, rfl⟩ | finite
  · cases (value?_infinite s).symm.trans hx
    cases s with
    | true => exact iff_of_true bot_le (infinite_le number').1
    | false =>
      rcases infinite_or_isFinite number' with ⟨t, rfl⟩ | finite'
      · cases (value?_infinite t).symm.trans hy
        cases t with
        | true => exact iff_of_false (by simp) (not_infinite_le_infinite p)
        | false => exact iff_of_true le_rfl (infinite_le number).2
      · cases (value?_of_isFinite finite').symm.trans hy
        exact iff_of_false (by simp) (not_le_infinite finite').1
  · cases (value?_of_isFinite finite).symm.trans hx
    rcases infinite_or_isFinite number' with ⟨t, rfl⟩ | finite'
    · cases (value?_infinite t).symm.trans hy
      cases t with
      | true => exact iff_of_false (by simp) (not_le_infinite finite).2
      | false => exact iff_of_true (by simp) (infinite_le number).2
    · cases (value?_of_isFinite finite').symm.trans hy
      rw [WithBot.coe_le_coe, WithTop.coe_le_coe]
      exact ⟨le_of_toRat finite finite', fun le => toRat_le le finite finite'⟩

theorem value?_convert (hx : x.isNaN = false) : (x.convert : Binary .double).value? = x.value? := by
  rcases infinite_or_isFinite hx with ⟨s, rfl⟩ | finite
  · rw [value?_infinite, infinite, convert, if_pos rfl, value?_infinite]
  · obtain ⟨wide, value⟩ := convert_double finite
    rw [value?_of_isFinite finite, value?_of_isFinite wide, value]

/-! ## The number after the nearest one -/

section SingleUp

variable {x : Binary .double} {y : Binary .single}

/-- How a word is moved to the next number up the line: a zero to the least positive number, a
positive number by a one added and a negative one by a one taken away, neither of which wraps. -/
inductive Moves (y z : Binary .single) : Prop where
  | zero : y.isZero → z.toBits = 1 → Moves y z
  | positive : y.isZero = false → y.isNegative = false → y.toBits + 1 < 2 ^ 32 →
      z.toBits = y.toBits + 1 → Moves y z
  | negative : y.isZero = false → y.isNegative → 0 < y.toBits → z.toBits + 1 = y.toBits → Moves y z

theorem singleUp_of_le (h : x.le (x.convert : Binary .single).convert) : singleUp x = x.convert :=
  if_pos h

theorem isNaN_singleUp (x : Binary .double) : (singleUp x).isNaN = x.isNaN := by
  cases hx : x.isNaN with
  | false => exact isNaN_roundUp hx .single
  | true =>
    have nan := (isNaN_convert (q := .single) x).trans hx
    unfold singleUp
    dsimp only
    generalize (x.convert : Binary .single) = y at nan
    cases y with
    | nan => split <;> rfl
    | number => cases nan

/-- What the nearest number falls short of is not infinite. -/
theorem convert_ne_infinite (number : x.isNaN = false)
    (short : x.le (x.convert : Binary .single).convert = false) :
    (x.convert : Binary .single) ≠ infinite false := by
  intro top
  have wide : ((infinite false : Binary .single).convert : Binary .double) = infinite false := by
    rw [infinite, convert, if_pos rfl]
  rw [top, wide, (infinite_le number).2] at short
  cases short

/-- If the nearest number falls short, rounding up goes one place up the line. -/
theorem singleUp_moves (number : x.isNaN = false)
    (short : x.le (x.convert : Binary .single).convert = false) :
    Moves x.convert (singleUp x) ∧ ∃ i, (x.convert : Binary .single).position = some i ∧
      (singleUp x).position = some (i + 1) := by
  have finite := convert_ne_infinite number short
  have made := (isNaN_convert (q := .single) x).trans number
  unfold singleUp
  dsimp only
  rw [if_neg (by rw [short]; decide)]
  generalize (x.convert : Binary .single) = y at finite made
  have sign : signBit .single = 2 ^ 31 := rfl
  have top : single.infinity < 2 ^ 31 := by decide
  cases y with
  | nan => cases made
  | number s r bound =>
    dsimp only
    by_cases zero : r = 0
    · subst zero
      rw [if_pos rfl]
      exact ⟨.zero rfl (by decide), 0, position_zero s, rfl⟩
    rw [if_neg zero]
    have nonzero : (Binary.number s r bound).isZero = false := by simpa [isZero] using zero
    cases s with
    | true =>
      have below : Min.min (r - 1) single.infinity = r - 1 := by omega
      rw [if_pos rfl]
      refine ⟨.negative nonzero rfl ?_ ?_, -r, rfl, ?_⟩
      · simp only [toBits, isNegative, magnitudeBits, if_true]
        omega
      · simp only [toBits, ofRank, below, isNegative, magnitudeBits, if_true]
        omega
      · simp only [ofRank, below, position, if_true, Option.some.injEq]
        omega
    | false =>
      have room : r ≠ single.infinity := fun infinity => finite (by simp only [infinite, infinity])
      have below : Min.min (r + 1) single.infinity = r + 1 := by omega
      rw [if_neg (by decide)]
      refine ⟨.positive nonzero rfl ?_ ?_, r, rfl, ?_⟩
      · simp only [toBits, isNegative, magnitudeBits, Bool.false_eq_true, if_false]
        omega
      · simp only [toBits, ofRank, below, isNegative, magnitudeBits, Bool.false_eq_true, if_false]
        omega
      · simp only [ofRank, below, position, Bool.false_eq_true, if_false, Option.some.injEq]
        omega

/-! ## The least number above -/

/-- Narrowing is on the near side of every number of the narrow format. -/
theorem convert_le_of_le_convert (h : x.le (y.convert : Binary .double)) :
    (x.convert : Binary .single).le y := by
  have narrow := le_convert (q := .single) h
  rwa [convert_convert ((isNaN_convert y).symm.trans (isNaN_of_le h).2)] at narrow

theorem le_convert_of_convert_le (h : (y.convert : Binary .double).le x) :
    y.le (x.convert : Binary .single) := by
  have narrow := le_convert (q := .single) h
  rwa [convert_convert ((isNaN_convert y).symm.trans (isNaN_of_le h).1)] at narrow

theorem le_singleUp (number : x.isNaN = false) : x.le (singleUp x).convert := by
  cases short : x.le (x.convert : Binary .single).convert with
  | true => rwa [singleUp_of_le short]
  | false =>
    obtain ⟨_, i, nearest, moved⟩ := singleUp_moves number short
    have made : ((singleUp x).convert : Binary .double).isNaN = false := by
      rw [isNaN_convert, isNaN_singleUp, number]
    -- Were the moved number below, the nearest number would be no less than it.
    refine (Binary.le_total number made).resolve_right fun below => ?_
    obtain ⟨j, k, hj, hk, order⟩ := Binary.le_iff.mp (le_convert_of_convert_le below)
    rw [moved] at hj
    rw [nearest] at hk
    cases hj
    cases hk
    omega

theorem singleUp_le (h : x.le (y.convert : Binary .double)) : (singleUp x).le y := by
  have number := (isNaN_of_le h).1
  have near := convert_le_of_le_convert h
  cases short : x.le (x.convert : Binary .single).convert with
  | true => rwa [singleUp_of_le short]
  | false =>
    obtain ⟨_, i, nearest, moved⟩ := singleUp_moves number short
    -- A number that is not past the nearest one falls short as well.
    have past : ¬y.le (x.convert : Binary .single) := fun back =>
      absurd (Binary.le_trans h (le_convert back)) (Bool.eq_false_iff.mp short)
    obtain ⟨j, k, hj, hk, order⟩ := Binary.le_iff.mp near
    cases nearest.symm.trans hj
    refine Binary.le_iff.mpr ⟨i + 1, k, moved, hk, ?_⟩
    by_contra less
    exact past (Binary.le_iff.mpr ⟨k, i, hk, nearest, by omega⟩)

theorem singleUp_mono {z : Binary .double} (h : x.le z) : (singleUp x).le (singleUp z) :=
  singleUp_le (Binary.le_trans h (le_singleUp (isNaN_of_le h).2))

theorem singleUp_convert (hy : y.isNaN = false) : singleUp (y.convert : Binary .double) = y := by
  have back := convert_convert hy
  have self : (y.convert : Binary .double).le y.convert :=
    Binary.le_refl ((isNaN_convert y).trans hy)
  rw [singleUp_of_le (by rwa [back]), back]

/-- Rounding up to a precision leaves its numbers as they are. -/
theorem roundUp_convert {x : Binary p} (hx : x.isNaN = false) :
    (x.convert : Binary .double).roundUp p = x := by
  cases p with
  | single => exact singleUp_convert hx
  | double => exact convert_self x

/-- Rounding up to a precision does not go below what is rounded. -/
theorem rises_roundUp {x : Binary .double} (h : x.OnSide false) (p : Precision) :
    x.Rises (x.roundUp p).convert := by
  cases p with
  | single => exact ⟨h, le_singleUp h.isNaN_eq⟩
  | double =>
    rw [convert_self]
    exact .refl h

end SingleUp

/-- Rounding a double up to single precision gives a NaN for a NaN, and else the number of least value
among those of single precision whose value is at least the double's. Where the nearest number has to
be moved, its word is moved by one without wrapping. So rounding up is monotone, never goes below its
argument and leaves the numbers of single precision as they are. -/
theorem singleUp_isLeast :
    (∀ x : Binary .double, (singleUp x).isNaN = x.isNaN ∧
      ∀ v, x.value? = some v →
        (∃ u, (singleUp x).value? = some u ∧
          IsLeast {u | v ≤ u ∧ ∃ y : Binary .single, y.value? = some u} u) ∧
        (x.le (x.convert : Binary .single).convert = false → Moves x.convert (singleUp x))) ∧
    (∀ x z : Binary .double, x.le z → (singleUp x).le (singleUp z)) ∧
    (∀ x : Binary .double, x.isNaN = false → x.le (singleUp x).convert) ∧
    ∀ y : Binary .single, y.isNaN = false → singleUp y.convert = y := by
  refine ⟨fun x => ⟨isNaN_singleUp x, fun v hv => ?_⟩, fun _ _ => singleUp_mono,
    fun _ => le_singleUp, fun _ => singleUp_convert⟩
  have number := isNaN_of_value hv
  have made := (isNaN_singleUp x).trans number
  refine ⟨?_, fun short => (singleUp_moves number short).1⟩
  obtain ⟨u, hu⟩ := exists_value made
  have wide := (value?_convert made).trans hu
  refine ⟨u, hu, ⟨(value_le_iff hv wide).mpr (le_singleUp number), singleUp x, hu⟩, ?_⟩
  rintro w ⟨above, y, hy⟩
  have wide' := (value?_convert (isNaN_of_value hy)).trans hy
  exact (value_le_iff hu hy).mpr (singleUp_le ((value_le_iff hv wide').mp above))

/-- Minus one tenth is above the nearest number of single precision, whose word ends in `cd`. -/
theorem singleUp_isLeast_tenth :
    letI x : Binary .double := ofBits 0xbfb999999999999a
    ∃ v u, x.value? = some v ∧ (singleUp x).value? = some u ∧
      IsLeast {u | v ≤ u ∧ ∃ y : Binary .single, y.value? = some u} u ∧
      x.le (x.convert : Binary .single).convert = false ∧ Moves x.convert (singleUp x) ∧
      (singleUp x).toBits = 0xbdcccccc := by
  let x : Binary .double := ofBits 0xbfb999999999999a
  have short : x.le (x.convert : Binary .single).convert = false := by decide +kernel
  obtain ⟨v, hv⟩ := exists_value (show x.isNaN = false by decide +kernel)
  obtain ⟨⟨u, hu, least⟩, moves⟩ := (singleUp_isLeast.1 x).2 v hv
  exact ⟨v, u, hv, hu, least, short, moves short, by decide +kernel⟩

end Binary

end PrivateRelease
