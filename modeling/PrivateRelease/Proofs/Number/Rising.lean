import Mathlib.Data.List.Forall2
import PrivateRelease.Proofs.Number.Monotone
import PrivateRelease.Proofs.Number.Sums

/-!
# Operations that rise with their operands

On numbers that are not below zero every operation is monotone. A NaN stands at infinity there: a
product or quotient that has no result is one whose operands, made larger, give infinity. So whole
formulas rise without a look at where a NaN comes up, and a minimum with a number hides it again.
-/

namespace PrivateRelease

namespace Precision

variable {p : Precision} {r r' k k' : Nat}

/-! ## Ranks of results -/

def sumRank (p : Precision) (r k : Nat) : Nat :=
  if r = p.infinity ∨ k = p.infinity then p.infinity else p.nearest (p.units r + p.units k) 1

def productRank (p : Precision) (r k : Nat) : Nat :=
  if r = p.infinity ∨ k = p.infinity then p.infinity
  else p.nearest (p.units r * p.units k) (2 ^ p.scale)

def quotientRank (p : Precision) (r k : Nat) : Nat :=
  if r = p.infinity then p.infinity
  else if k = p.infinity then 0 else p.nearest (p.units r * 2 ^ p.scale) (p.units k)

def squareRootRank (p : Precision) (r : Nat) : Nat :=
  if r = p.infinity then p.infinity else min (p.rootRank (p.units r * 2 ^ p.scale)) p.infinity

/-- The rank in precision `q`. -/
def convertedRank (p q : Precision) (r : Nat) : Nat :=
  if r = p.infinity then q.infinity else q.nearest (p.units r * 2 ^ q.scale) (2 ^ p.scale)

/-- The rank in precision `p` of a double rounded up. -/
def upwardRank : Precision → Nat → Nat
  | single, r =>
    let k := convertedRank double single r
    if r ≤ convertedRank single double k then k else min (k + 1) single.infinity
  | double, r => r

theorem ite_infinity_mono {P Q : Prop} [Decidable P] [Decidable Q] (bound : r ≤ p.infinity)
    (h : P → Q) (le : r ≤ k) :
    (if P then p.infinity else r) ≤ if Q then p.infinity else k := by
  by_cases hq : Q
  · rw [if_pos hq]
    split
    · exact Nat.le_refl _
    · exact bound
  · rw [if_neg hq, if_neg (mt h hq)]
    exact le

theorem sumRank_mono (hr : r ≤ r') (hk : k ≤ k') (top : r' ≤ p.infinity) (top' : k' ≤ p.infinity) :
    p.sumRank r k ≤ p.sumRank r' k' := by
  refine ite_infinity_mono (nearest_le _ _ _) (by omega) (nearest_mono Nat.one_pos Nat.one_pos ?_)
  exact Nat.mul_le_mul_right 1 (Nat.add_le_add (units_le hr) (units_le hk))

theorem productRank_mono (hr : r ≤ r') (hk : k ≤ k') (top : r' ≤ p.infinity)
    (top' : k' ≤ p.infinity) : p.productRank r k ≤ p.productRank r' k' := by
  have unit := Nat.two_pow_pos p.scale
  refine ite_infinity_mono (nearest_le _ _ _) (by omega) (nearest_mono unit unit ?_)
  exact Nat.mul_le_mul_right _ (Nat.mul_le_mul (units_le hr) (units_le hk))

theorem units_pos (h : 0 < k) : 0 < p.units k := by
  have less := units_lt (p := p) h
  rwa [units_zero] at less

theorem quotientRank_mono (hr : r ≤ r') (top : r' ≤ p.infinity) (pos : 0 < k) :
    p.quotientRank r k ≤ p.quotientRank r' k := by
  refine ite_infinity_mono ?_ (by omega) ?_
  · split
    · exact Nat.zero_le _
    · exact nearest_le _ _ _
  · split
    · exact Nat.le_refl _
    · refine nearest_mono (units_pos pos) (units_pos pos) ?_
      exact Nat.mul_le_mul_right _ (Nat.mul_le_mul_right _ (units_le hr))

theorem squareRootRank_mono (hr : r ≤ r') (top : r' ≤ p.infinity) :
    p.squareRootRank r ≤ p.squareRootRank r' := by
  refine ite_infinity_mono (Nat.min_le_right _ _) (by omega) ?_
  have roots := rootRank_mono (p := p) (Nat.mul_le_mul_right (2 ^ p.scale) (units_le (p := p) hr))
  omega

variable {q : Precision}

theorem convertedRank_mono (hr : r ≤ r') (top : r' ≤ p.infinity) :
    p.convertedRank q r ≤ p.convertedRank q r' := by
  have unit := Nat.two_pow_pos p.scale
  refine ite_infinity_mono (nearest_le _ _ _) (by omega) (nearest_mono unit unit ?_)
  exact Nat.mul_le_mul_right _ (Nat.mul_le_mul_right _ (units_le hr))

theorem convertedRank_le (p q : Precision) (r : Nat) : p.convertedRank q r ≤ q.infinity := by
  unfold convertedRank
  split
  · exact Nat.le_refl _
  · exact nearest_le _ _ _

theorem convertedRank_zero (p q : Precision) : p.convertedRank q 0 = 0 := by
  rw [convertedRank, if_neg (Nat.ne_of_lt p.infinity_pos), units_zero, Nat.zero_mul]
  exact q.nearest_zero (Nat.two_pow_pos _)

theorem upwardRank_mono (hr : r ≤ r') (top : r' ≤ double.infinity) :
    p.upwardRank r ≤ p.upwardRank r' := by
  cases p with
  | double => exact hr
  | single =>
    have nearest : double.convertedRank single r ≤ double.convertedRank single r' :=
      convertedRank_mono hr top
    have bound := convertedRank_le double single r'
    unfold upwardRank
    dsimp only
    rcases Nat.eq_or_lt_of_le nearest with same | larger
    · -- What is not below the larger number is not below the smaller one.
      rw [same]
      split
      · split <;> omega
      · rw [if_neg (by omega)]
    · split <;> split <;> omega

end Precision

namespace Binary

open Precision

variable {p q : Precision} {x y x' y' : Binary p} {r k : Nat}

/-! ## Standing at a rank -/

/-- Not below zero, and of a rank. A NaN stands at infinity. -/
inductive StandsAt : Binary p → Nat → Prop where
  | nan (s : Bool) (n : Nat) (h : 0 < n ∧ n < p.binade) : StandsAt (.nan s n h) p.infinity
  | number {s : Bool} {r : Nat} (h : r ≤ p.infinity) :
      s = false ∨ r = 0 → StandsAt (.number s r h) r

theorem StandsAt.le (h : x.StandsAt r) : r ≤ p.infinity := by
  cases h with
  | nan => exact Nat.le_refl _
  | number bound => exact bound

theorem OnSide.exists_standsAt (h : x.OnSide false) : ∃ r, x.StandsAt r := by
  cases x with
  | nan => cases h
  | number s r bound => exact ⟨r, .number bound h⟩

theorem StandsAt.onSide (h : x.StandsAt r) (number : x.isNaN = false) : x.OnSide false := by
  cases h with
  | nan => cases number
  | number _ side => exact side

theorem standsAt_infinite : (infinite false : Binary p).StandsAt p.infinity :=
  .number (Nat.le_refl _) (.inl rfl)

theorem standsAt_zero (s : Bool) : (zero s : Binary p).StandsAt 0 := .number _ (.inr rfl)

theorem standsAt_rounded {s : Bool} {num den : Nat} (h : s = false ∨ num = 0) (hden : 0 < den) :
    (rounded s num den : Binary p).StandsAt (p.nearest num den) := by
  refine .number _ (h.imp_right fun zero => ?_)
  rw [zero]
  exact p.nearest_zero hden

/-- An infinite number that is not below zero is positive infinity. -/
theorem sign_of_infinite {s : Bool} (h : s = false ∨ r = 0) (infinite : r = p.infinity) :
    s = false :=
  h.resolve_right (infinite ▸ Nat.ne_of_gt p.infinity_pos)

theorem signedUnits_eq {s : Bool} (h : s = false ∨ r = 0) : signedUnits p s r = p.units r := by
  rcases h with rfl | rfl
  · rfl
  · cases s <;> simp [signedUnits, units_zero]

theorem isNaN_convert (x : Binary p) : (x.convert : Binary q).isNaN = x.isNaN := by
  cases x with
  | nan s n h =>
    rw [Binary.convert]
    split <;> rfl
  | number s r h =>
    rw [Binary.convert]
    split <;> rfl

/-- A number that is not below zero has its rank as its place. -/
theorem position_eq {s : Bool} {h : r ≤ p.infinity} (hs : s = false ∨ r = 0) :
    (number s r h).position = some (r : Int) := by
  rcases hs with rfl | rfl
  · rfl
  · exact position_zero s

namespace StandsAt

theorem unique (h : x.StandsAt r) (h' : x.StandsAt k) : r = k := by
  cases h <;> cases h' <;> rfl

theorem add (hx : x.StandsAt r) (hy : y.StandsAt k) : (x + y).StandsAt (p.sumRank r k) := by
  show (Binary.add x y).StandsAt _
  cases hx with
  | nan s n h =>
    rw [sumRank, if_pos (.inl rfl)]
    exact .nan ..
  | @number s r h hs =>
    cases hy with
    | nan t n h' =>
      rw [sumRank, if_pos (.inr rfl)]
      exact .nan ..
    | @number t k h' ht =>
      rw [Binary.add, sumRank]
      by_cases hr : r = p.infinity
      · rw [if_pos hr, if_pos (Or.inl hr), sign_of_infinite hs hr]
        split
        · exact .nan ..
        · exact hr ▸ .number h (.inl rfl)
      · by_cases hk : k = p.infinity
        · rw [if_neg hr, if_pos hk, if_pos (.inr hk)]
          exact hk ▸ .number h' ht
        · rw [if_neg hr, if_neg hk, if_neg (by simp [hr, hk]), signedUnits_eq hs, signedUnits_eq ht,
            ← Int.natCast_add, ofUnits]
          split
          next none =>
            rw [Int.natCast_eq_zero.mp none, p.nearest_zero Nat.one_pos]
            exact standsAt_zero _
          · exact standsAt_rounded (.inl (by simp; omega)) Nat.one_pos

theorem mul (hx : x.StandsAt r) (hy : y.StandsAt k) : (x * y).StandsAt (p.productRank r k) := by
  show (Binary.mul x y).StandsAt _
  cases hx with
  | nan s n h =>
    rw [productRank, if_pos (.inl rfl)]
    exact .nan ..
  | @number s r h hs =>
    cases hy with
    | nan t n h' =>
      rw [productRank, if_pos (.inr rfl)]
      exact .nan ..
    | @number t k h' ht =>
      rw [Binary.mul, productRank]
      by_cases infinite : r = p.infinity ∨ k = p.infinity
      · rw [if_pos (by simpa using infinite), if_pos infinite]
        by_cases zero : r = 0 ∨ k = 0
        · rw [if_pos (by simpa using zero)]
          exact .nan ..
        · rw [if_neg (by simpa using zero), hs.resolve_right (by omega), ht.resolve_right (by omega)]
          exact standsAt_infinite
      · rw [if_neg (by simpa using infinite), if_neg infinite]
        refine standsAt_rounded ?_ (Nat.two_pow_pos _)
        rcases hs with rfl | rfl
        · rcases ht with rfl | rfl
          · exact .inl rfl
          · simp [units_zero]
        · simp [units_zero]

theorem div (hx : x.StandsAt r) (pos : 0 < k) (h : k ≤ p.infinity) :
    (x / Binary.number false k h).StandsAt (p.quotientRank r k) := by
  show (Binary.div x _).StandsAt _
  cases hx with
  | nan s n h =>
    rw [quotientRank, if_pos rfl]
    exact .nan ..
  | @number s r h' hs =>
    rw [Binary.div, quotientRank]
    by_cases hr : r = p.infinity
    · rw [if_pos hr, if_pos hr, sign_of_infinite hs hr]
      split
      · exact .nan ..
      · exact standsAt_infinite
    · rw [if_neg hr, if_neg hr]
      split
      · exact standsAt_zero _
      · rw [if_neg (Nat.ne_of_gt pos)]
        refine standsAt_rounded ?_ (units_pos pos)
        exact hs.imp (by simp) (by simp +contextual [units_zero])

theorem sqrt (hx : x.StandsAt r) : x.sqrt.StandsAt (p.squareRootRank r) := by
  cases hx with
  | nan s n h =>
    rw [squareRootRank, if_pos rfl]
    exact .nan ..
  | @number s r h hs =>
    rw [Binary.sqrt, squareRootRank]
    by_cases zero : r = 0
    · subst zero
      rw [if_pos rfl, if_neg (Nat.ne_of_lt p.infinity_pos), units_zero, Nat.zero_mul, rootRank_zero,
        Nat.zero_min]
      exact .number h hs
    · rw [if_neg zero, hs.resolve_right zero, if_neg (by simp)]
      split
      next infinite => exact infinite ▸ .number h (.inl rfl)
      · exact .number _ (.inl rfl)

theorem min (hx : x.StandsAt r) (hy : y.StandsAt k) : (x.min y).StandsAt (Min.min r k) := by
  have left := hx.le
  have right := hy.le
  cases hx with
  | nan =>
    rw [Nat.min_eq_right right]
    exact hy
  | @number s r h hs =>
    cases hy with
    | nan =>
      rw [Nat.min_eq_left left]
      exact .number h hs
    | @number t k h' ht =>
      show (if (Binary.number s r h).lt (Binary.number t k h') then Binary.number s r h
        else Binary.number t k h').StandsAt _
      rw [Binary.lt, position_eq hs, position_eq ht]
      dsimp only
      split
      next less =>
        rw [Nat.min_eq_left (Nat.le_of_lt (by simpa using less))]
        exact .number h hs
      next more =>
        rw [Nat.min_eq_right (by simpa using more)]
        exact .number h' ht

theorem convert (hx : x.StandsAt r) : (x.convert : Binary q).StandsAt (p.convertedRank q r) := by
  cases hx with
  | nan s n h =>
    rw [Binary.convert, convertedRank, if_pos rfl]
    split <;> exact .nan ..
  | @number s r h hs =>
    rw [Binary.convert, convertedRank]
    split
    next infinite =>
      rw [sign_of_infinite hs infinite]
      exact standsAt_infinite
    · refine standsAt_rounded (hs.imp_right fun zero => ?_) (Nat.two_pow_pos _)
      rw [zero, units_zero, Nat.zero_mul]

theorem position (hx : x.StandsAt r) (number : x.isNaN = false) : x.position = some (r : Int) := by
  cases hx with
  | nan => cases number
  | number _ side => exact position_eq side

theorem le_iff (hx : x.StandsAt r) (hy : y.StandsAt k) (number : x.isNaN = false)
    (number' : y.isNaN = false) : x.le y ↔ r ≤ k := by
  simp [Binary.le, hx.position number, hy.position number']

theorem lt_iff (hx : x.StandsAt r) (hy : y.StandsAt k) (number : x.isNaN = false)
    (number' : y.isNaN = false) : x.lt y ↔ r < k := by
  simp [Binary.lt, hx.position number, hy.position number']

/-- Rounding up goes one rank on from the nearest number where that is below. -/
theorem singleUp {x : Binary .double} (hx : x.StandsAt r) :
    (singleUp x).StandsAt (single.upwardRank r) := by
  have narrow : (x.convert : Binary .single).StandsAt (double.convertedRank single r) := hx.convert
  have number := isNaN_convert (q := .single) x
  unfold Binary.singleUp upwardRank
  dsimp only
  generalize (x.convert : Binary .single) = y at narrow number
  generalize double.convertedRank single r = k at narrow
  have wide : (y.convert : Binary .double).StandsAt (single.convertedRank double k) := narrow.convert
  have number' := isNaN_convert (q := .double) y
  generalize (y.convert : Binary .double) = z at wide number'
  generalize single.convertedRank double k = j at wide
  cases narrow with
  | nan t n h =>
    -- A NaN stays one, and infinity has no rank after it.
    have rank : (if r ≤ j then single.infinity else Min.min (single.infinity + 1) single.infinity) =
        single.infinity := by
      split <;> omega
    rw [rank]
    split <;> exact .nan ..
  | @number t k h ht =>
    have compare := hx.le_iff wide number.symm number'
    by_cases below : r ≤ j
    · rw [if_pos (compare.mpr below), if_pos below]
      exact .number h ht
    rw [if_neg (mt compare.mp below), if_neg below]
    dsimp only
    by_cases zero : k = 0
    · rw [if_pos zero, zero]
      exact .number _ (.inl rfl)
    · rw [if_neg zero, ht.resolve_right zero]
      exact .number _ (.inl rfl)

theorem roundUp {x : Binary .double} (hx : x.StandsAt r) (p : Precision) :
    (x.roundUp p).StandsAt (p.upwardRank r) := by
  cases p with
  | single => exact hx.singleUp
  | double => exact hx

end StandsAt

/-! ## Being under -/

/-- Neither is below zero, and the first is at most the second, a NaN counting as infinity. -/
def Under (x y : Binary p) : Prop := ∃ r k, x.StandsAt r ∧ y.StandsAt k ∧ r ≤ k

theorem StandsAt.under (h : x.StandsAt r) : x.Under x := ⟨r, r, h, h, Nat.le_refl r⟩

theorem StandsAt.min_under_left (hx : x.StandsAt r) (hy : y.StandsAt k) : (x.min y).Under x :=
  ⟨_, _, hx.min hy, hx, Nat.min_le_left r k⟩

theorem StandsAt.min_under_right (hx : x.StandsAt r) (hy : y.StandsAt k) : (x.min y).Under y :=
  ⟨_, _, hx.min hy, hy, Nat.min_le_right r k⟩

/-- A relation that addition keeps passes from summands to sums. -/
theorem sum_relation {R : Binary p → Binary p → Prop} (start : R (zero true) (zero true))
    (step : ∀ {a b x y}, R a b → R x y → R (a + x) (b + y)) {xs ys : List (Binary p)}
    (h : List.Forall₂ R xs ys) : R (sum xs) (sum ys) := by
  have total : ∀ a b, R a b → R (xs.foldl (· + ·) a) (ys.foldl (· + ·) b) := by
    induction h with
    | nil => exact fun _ _ start => start
    | cons h _ ih => exact fun _ _ start => ih _ _ (step start h)
  exact total _ _ start

namespace Under

theorem add (h : x.Under y) (h' : x'.Under y') : (x + x').Under (y + y') := by
  obtain ⟨r, k, hx, hy, hrk⟩ := h
  obtain ⟨r', k', hx', hy', hrk'⟩ := h'
  exact ⟨_, _, hx.add hx', hy.add hy', sumRank_mono hrk hrk' hy.le hy'.le⟩

theorem mul (h : x.Under y) (h' : x'.Under y') : (x * x').Under (y * y') := by
  obtain ⟨r, k, hx, hy, hrk⟩ := h
  obtain ⟨r', k', hx', hy', hrk'⟩ := h'
  exact ⟨_, _, hx.mul hx', hy.mul hy', productRank_mono hrk hrk' hy.le hy'.le⟩

theorem div (h : x.Under y) (pos : 0 < k) (bound : k ≤ p.infinity) :
    (x / Binary.number false k bound).Under (y / Binary.number false k bound) := by
  obtain ⟨r, r', hx, hy, hr⟩ := h
  exact ⟨_, _, hx.div pos bound, hy.div pos bound, quotientRank_mono hr hy.le pos⟩

theorem sqrt (h : x.Under y) : x.sqrt.Under y.sqrt := by
  obtain ⟨r, k, hx, hy, hrk⟩ := h
  exact ⟨_, _, hx.sqrt, hy.sqrt, squareRootRank_mono hrk hy.le⟩

theorem min (h : x.Under y) (h' : x'.Under y') : (x.min x').Under (y.min y') := by
  obtain ⟨r, k, hx, hy, hrk⟩ := h
  obtain ⟨r', k', hx', hy', hrk'⟩ := h'
  exact ⟨_, _, hx.min hx', hy.min hy', by omega⟩

theorem convert (h : x.Under y) : (x.convert : Binary q).Under y.convert := by
  obtain ⟨r, k, hx, hy, hrk⟩ := h
  exact ⟨_, _, hx.convert, hy.convert, convertedRank_mono hrk hy.le⟩

theorem roundUp {x y : Binary .double} (h : x.Under y) (p : Precision) :
    (x.roundUp p).Under (y.roundUp p) := by
  obtain ⟨r, k, hx, hy, hrk⟩ := h
  exact ⟨_, _, hx.roundUp p, hy.roundUp p, upwardRank_mono hrk hy.le⟩

theorem sum {xs ys : List (Binary p)} (h : List.Forall₂ Under xs ys) : (sum xs).Under (sum ys) :=
  sum_relation (standsAt_zero true).under (fun h h' => h.add h') h

theorem trans {z : Binary p} (h : x.Under y) (h' : y.Under z) : x.Under z := by
  obtain ⟨r, k, hx, hy, hrk⟩ := h
  obtain ⟨k', j, hy', hz, hkj⟩ := h'
  cases hy.unique hy'
  exact ⟨r, j, hx, hz, Nat.le_trans hrk hkj⟩

theorem le_min {z : Binary p} (h : x.Under y) (h' : x.Under z) : x.Under (y.min z) := by
  obtain ⟨r, k, hx, hy, hrk⟩ := h
  obtain ⟨r', j, hx', hz, hrj⟩ := h'
  cases hx.unique hx'
  exact ⟨r, Min.min k j, hx, hy.min hz, Nat.le_min.mpr ⟨hrk, hrj⟩⟩

end Under

/-! ## Rising -/

/-- Two numbers, neither below zero, of which the first is at most the second. -/
structure Rises (x y : Binary p) : Prop where
  side : x.OnSide false
  le : x.le y

theorem Under.rises (h : x.Under y) (number : x.isNaN = false) (number' : y.isNaN = false) :
    x.Rises y := by
  obtain ⟨r, k, hx, hy, hrk⟩ := h
  exact ⟨hx.onSide number, (hx.le_iff hy number number').mpr hrk⟩

/-! ### Numbers as results -/

theorem isNaN_mul (hx : x.isNaN = false) (hy : y.isNaN = false)
    (h : x.isZero → y.isInfinite = false) (h' : y.isZero → x.isInfinite = false) :
    (x * y).isNaN = false := by
  show (Binary.mul x y).isNaN = false
  cases x with
  | nan => cases hx
  | number s r _ =>
    cases y with
    | nan => cases hy
    | number t k _ =>
      simp only [isZero, isInfinite, beq_iff_eq, beq_eq_false_iff_ne] at h h'
      have pos := p.infinity_pos
      unfold Binary.mul
      dsimp only
      split
      · rw [if_neg (by simp_all; omega)]
        rfl
      · rfl

theorem isNaN_mul_of_pos (hx : x.isNaN = false) (hy : y.isNaN = false) (zero : x.isZero = false)
    (zero' : y.isZero = false) : (x * y).isNaN = false :=
  isNaN_mul hx hy (fun h => by rw [zero] at h; cases h) fun h => by rw [zero'] at h; cases h

theorem isNaN_mul_self (hx : x.isNaN = false) : (x * x).isNaN = false := by
  have apart : x.isZero → x.isInfinite = false := by
    cases x with
    | nan => cases hx
    | number s r _ =>
      have pos := p.infinity_pos
      simp only [isZero, isInfinite, beq_iff_eq, beq_eq_false_iff_ne]
      omega
  exact isNaN_mul hx hx apart apart

theorem isNaN_sqrt (h : x.OnSide false) : x.sqrt.isNaN = false := by
  cases x with
  | nan => cases h
  | number s r _ =>
    unfold Binary.sqrt
    dsimp only
    split
    · rfl
    next zero =>
      rw [h.resolve_right zero, if_neg (by simp)]
      split <;> rfl

theorem isNaN_min (h : x.isNaN = false ∨ y.isNaN = false) : (x.min y).isNaN = false := by
  unfold Binary.min
  cases hx : x.isNaN with
  | true => simpa [hx] using h
  | false =>
    cases hy : y.isNaN with
    | true => simpa using hx
    | false => simp only [Bool.false_eq_true, if_false]; split <;> assumption

theorem isNaN_roundUp {x : Binary .double} (h : x.isNaN = false) (p : Precision) :
    (x.roundUp p).isNaN = false := by
  cases p with
  | double => exact h
  | single =>
    have number := isNaN_convert (q := .single) x
    show (singleUp x).isNaN = false
    unfold singleUp
    dsimp only
    split
    · rw [number, h]
    · split
      · next eq => rw [eq, h] at number; cases number
      · split
        · rfl
        · split <;> rfl

namespace Rises

theorem right (h : x.Rises y) : y.OnSide false := onSide_of_lower h.side h.le

theorem isNaN_left (h : x.Rises y) : x.isNaN = false := h.side.isNaN_eq

theorem isNaN_right (h : x.Rises y) : y.isNaN = false := h.right.isNaN_eq

theorem under (h : x.Rises y) : x.Under y := by
  obtain ⟨r, hx⟩ := h.side.exists_standsAt
  obtain ⟨k, hy⟩ := h.right.exists_standsAt
  exact ⟨r, k, hx, hy, (hx.le_iff hy h.isNaN_left h.isNaN_right).mp h.le⟩

theorem refl (h : x.OnSide false) : x.Rises x := by
  obtain ⟨r, hx⟩ := h.exists_standsAt
  exact hx.under.rises h.isNaN_eq h.isNaN_eq

theorem add (h : x.Rises y) (h' : x'.Rises y') : (x + x').Rises (y + y') :=
  (h.under.add h'.under).rises (h.side.add h'.side).isNaN_eq (h.right.add h'.right).isNaN_eq

theorem div (h : x.Rises y) (pos : 0 < k) (finite : k < p.infinity) :
    (x / number false k (Nat.le_of_lt finite)).Rises (y / number false k (Nat.le_of_lt finite)) :=
  (h.under.div pos _).rises (isNaN_div h.isNaN_left _ pos finite false)
    (isNaN_div h.isNaN_right _ pos finite false)

theorem mul_self (h : x.Rises y) : (x * x).Rises (y * y) :=
  (h.under.mul h.under).rises (isNaN_mul_self h.isNaN_left) (isNaN_mul_self h.isNaN_right)

/-- What is not below a number other than zero is not zero. -/
theorem isZero_right (h : x.Rises y) (zero : x.isZero = false) : y.isZero = false := by
  obtain ⟨i, j, hi, hj, hij⟩ := Binary.le_iff.mp h.le
  have side := h.side
  cases x with
  | nan => cases hi
  | number s r _ =>
    cases y with
    | nan => cases hj
    | number t k _ =>
      have pos : r ≠ 0 := by simpa [isZero] using zero
      cases hi
      cases hj
      rw [side.resolve_right pos] at hij
      cases t <;> simp [isZero] at hij ⊢ <;> omega

theorem mul (h : x.Rises y) (h' : x'.Rises y') (zero : x.isZero = false)
    (zero' : x'.isZero = false) :
    (x * x').Rises (y * y') :=
  (h.under.mul h'.under).rises (isNaN_mul_of_pos h.isNaN_left h'.isNaN_left zero zero')
    (isNaN_mul_of_pos h.isNaN_right h'.isNaN_right (h.isZero_right zero) (h'.isZero_right zero'))

theorem sqrt (h : x.Rises y) : x.sqrt.Rises y.sqrt :=
  h.under.sqrt.rises (isNaN_sqrt h.side) (isNaN_sqrt h.right)

theorem min_left (h : x.Rises y) (h' : x'.Under y') : (x.min x').Rises (y.min y') :=
  (h.under.min h').rises (isNaN_min (.inl h.isNaN_left)) (isNaN_min (.inl h.isNaN_right))

theorem min_right (h : x.Under y) (h' : x'.Rises y') : (x.min x').Rises (y.min y') :=
  (h.min h'.under).rises (isNaN_min (.inr h'.isNaN_left)) (isNaN_min (.inr h'.isNaN_right))

theorem convert (h : x.Rises y) : (x.convert : Binary q).Rises y.convert :=
  h.under.convert.rises ((isNaN_convert x).trans h.isNaN_left)
    ((isNaN_convert y).trans h.isNaN_right)

theorem roundUp {x y : Binary .double} (h : x.Rises y) (p : Precision) :
    (x.roundUp p).Rises (y.roundUp p) :=
  (h.under.roundUp p).rises (isNaN_roundUp h.isNaN_left p) (isNaN_roundUp h.isNaN_right p)

theorem sum {xs ys : List (Binary p)} (h : List.Forall₂ Rises xs ys) : (sum xs).Rises (sum ys) :=
  sum_relation (.refl (.inr rfl)) (fun h h' => h.add h') h

end Rises

end Binary

end PrivateRelease
