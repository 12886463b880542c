import PrivateRelease.Proofs.Number.Rising

/-!
# Comparisons after rounding

Conversions keep the order of numbers on the whole line, below zero as well. What lies between two
numbers in order is not below zero, and inverses reverse the order: the inverse of a number below one
is above one.
-/

namespace PrivateRelease

namespace Binary

open Precision

variable {p q : Precision} {x y : Binary p} {r k : Nat}

/-! ## Conversions -/

theorem convert_number (s : Bool) (h : r ≤ p.infinity) :
    ((number s r h).convert : Binary q) =
      number s (p.convertedRank q r) (convertedRank_le p q r) := by
  simp only [convert, convertedRank]
  split <;> rfl

theorem ofInt_eq (n : Int) : (ofInt n : Binary p) =
    number (decide (n < 0)) (p.nearest (n.natAbs * 2 ^ p.scale) 1) (nearest_le _ _ _) := by
  unfold ofInt
  split
  next zero =>
    subst zero
    simp [zero, p.nearest_zero]
  · rfl

/-- Signed ranks are in order if the ranks on each side of zero are. -/
theorem le_number {s t : Bool} {r' k' : Nat} {h : r ≤ p.infinity} {h' : k ≤ p.infinity}
    (le : (number s r h).le (number t k h')) {i : r' ≤ q.infinity} {i' : k' ≤ q.infinity}
    (up : r ≤ k → r' ≤ k') (down : k ≤ r → k' ≤ r') (zero : r = 0 → r' = 0)
    (zero' : k = 0 → k' = 0) :
    (number s r' i).le (number t k' i') := by
  cases s <;> cases t <;> simp [Binary.le, position] at le ⊢ <;> omega

theorem le_convert (h : x.le y) : (x.convert : Binary q).le y.convert := by
  cases x with
  | nan => cases h
  | number s r hr =>
    cases y with
    | nan =>
      obtain ⟨_, _, _, hy, _⟩ := Binary.le_iff.mp h
      cases hy
    | number t k hk =>
      rw [convert_number, convert_number]
      refine le_number h (fun up => convertedRank_mono up hk) (fun down => convertedRank_mono down hr)
        (fun zero => ?_) fun zero => ?_
      · rw [zero, convertedRank_zero]
      · rw [zero, convertedRank_zero]

theorem le_ofInt {m n : Int} (h : m ≤ n) : (ofInt m : Binary p).le (ofInt n) := by
  have scaled : ∀ {a b : Nat}, a ≤ b →
      p.nearest (a * 2 ^ p.scale) 1 ≤ p.nearest (b * 2 ^ p.scale) 1 := fun hab =>
    nearest_mono Nat.one_pos Nat.one_pos (Nat.mul_le_mul_right 1 (Nat.mul_le_mul_right _ hab))
  rw [ofInt_eq, ofInt_eq, Binary.le_iff]
  simp only [position, decide_eq_true_eq]
  refine ⟨_, _, rfl, rfl, ?_⟩
  split <;> split
  · have := scaled (show n.natAbs ≤ m.natAbs by omega)
    omega
  · omega
  · omega
  · exact Int.ofNat_le.mpr (scaled (by omega))

theorem onSide_ofInt {n : Int} (h : 0 ≤ n) : (ofInt n : Binary p).OnSide false := by
  rw [ofInt_eq]
  exact .inl (by simpa using h)

theorem rises_ofInt {m n : Int} (pos : 0 ≤ m) (h : m ≤ n) : (ofInt m : Binary p).Rises (ofInt n) :=
  ⟨onSide_ofInt pos, le_ofInt h⟩

/-! ## Differences and bounds -/

theorem signedUnits_not (s : Bool) (r : Nat) : signedUnits p (!s) r = -signedUnits p s r := by
  cases s <;> simp [signedUnits]

theorem signedUnits_le {s t : Bool} {h : r ≤ p.infinity} {h' : k ≤ p.infinity}
    (le : (number s r h).le (number t k h')) : signedUnits p s r ≤ signedUnits p t k := by
  have up : r ≤ k → p.units r ≤ p.units k := units_le
  have down : k ≤ r → p.units k ≤ p.units r := units_le
  have zero := units_zero p
  cases s <;> cases t <;> simp [Binary.le, position] at le <;> simp only [signedUnits] <;> grind

/-- What lies between two numbers in order is not below zero. -/
theorem exists_standsAt_sub (h : x.le y) : ∃ r, (y - x).StandsAt r := by
  cases x with
  | nan => cases h
  | number s r hr =>
    cases y with
    | nan =>
      obtain ⟨_, _, _, hy, _⟩ := Binary.le_iff.mp h
      cases hy
    | number t k hk =>
      show ∃ j, (add (number t k hk) (number (!s) r hr)).StandsAt j
      have order := h
      simp only [Binary.le, position, decide_eq_true_eq] at order
      have pos := p.infinity_pos
      unfold add
      dsimp only
      by_cases infinite : k = p.infinity
      · rw [if_pos infinite]
        split
        · exact ⟨p.infinity, .nan ..⟩
        next same =>
          refine ⟨k, .number hk (.inl ?_)⟩
          cases t <;> cases s <;> simp at order same ⊢ <;> omega
      · rw [if_neg infinite]
        split
        · refine ⟨r, .number hr (.inl ?_)⟩
          cases t <;> cases s <;> simp at order ⊢ <;> omega
        · refine (onSide_ofUnits (s := false) _ ?_).exists_standsAt
          have units := signedUnits_le h
          rw [signedUnits_not]
          simp only [Bool.false_eq_true, if_false]
          omega

theorem exists_standsAt_max (hx : x.StandsAt r) (hy : y.StandsAt k) : ∃ j, (x.max y).StandsAt j := by
  unfold Binary.max
  split
  · exact ⟨k, hy⟩
  · split
    · exact ⟨r, hx⟩
    · split
      · exact ⟨r, hx⟩
      · exact ⟨k, hy⟩

theorem exists_standsAt_abs (x : Binary p) : ∃ r, x.abs.StandsAt r := by
  cases x with
  | nan s n h => exact ⟨p.infinity, .nan ..⟩
  | number s r h => exact ⟨r, .number h (.inl rfl)⟩

/-! ## Positive numbers -/

theorem exists_of_pos {x : Binary .double} (h : Binary.lt 0 x) :
    ∃ k bound, 0 < k ∧ x = number false k bound := by
  have zero : (0 : Binary .double).position = some 0 := position_zero false
  rw [Binary.lt, zero] at h
  cases x with
  | nan => cases h
  | number s k bound =>
    cases s with
    | false => exact ⟨k, bound, by simpa [position] using h, rfl⟩
    | true =>
      simp only [position, if_true, decide_eq_true_eq] at h
      omega

theorem onSide_of_pos {x : Binary .double} (h : Binary.lt 0 x) : x.OnSide false := by
  obtain ⟨k, bound, _, rfl⟩ := exists_of_pos h
  exact .inl rfl

theorem isZero_of_pos {x : Binary .double} (h : Binary.lt 0 x) : x.isZero = false := by
  obtain ⟨k, bound, pos, rfl⟩ := exists_of_pos h
  simpa [isZero] using Nat.ne_of_gt pos

theorem exists_of_onSide (h : x.OnSide false) (zero : x.isZero = false) :
    ∃ k bound, 0 < k ∧ x = number false k bound := by
  cases x with
  | nan => cases h
  | number s k bound =>
    have pos : k ≠ 0 := by simpa [isZero] using zero
    exact ⟨k, bound, Nat.pos_of_ne_zero pos, by rw [h.resolve_right pos]⟩

theorem onSide_of_isZero (h : x.isZero) (s : Bool) : x.OnSide s := by
  cases x with
  | nan => cases h
  | number => exact .inr (by simpa [isZero] using h)

theorem zero_le_iff {x : Binary .double} : Binary.le 0 x ↔ x.OnSide false := by
  have zero : (0 : Binary .double).position = some 0 := position_zero false
  rw [Binary.le_iff, onSide_iff, zero]
  simp

theorem one_le_infinity (p : Precision) :
    (p.scale - p.fractionBits + 1) * p.binade ≤ p.infinity := by
  cases p <;> decide

/-- One, by its place on the line of ranks. -/
def one : Binary p := number false ((p.scale - p.fractionBits + 1) * p.binade) (one_le_infinity p)

theorem one_eq : (1 : Binary p) = one := by
  have enough : p.fractionBits ≤ p.scale := by cases p <;> decide
  have made := rounded_units false (one_le_infinity p) Nat.one_pos
  rw [units_two_pow enough, Nat.mul_one] at made
  show Binary.ofInt 1 = _
  rw [Binary.ofInt, if_neg (by decide), Int.natAbs_one, Nat.one_mul]
  exact made

theorem standsAt_one : (1 : Binary .double).StandsAt (1023 * double.binade) := by
  rw [one_eq]
  exact .number _ (.inl rfl)

theorem one_rises_ofNat {n : Nat} (pos : 0 < n) : (1 : Binary .double).Rises (ofNat n) := by
  have one : (1 : Binary .double) = ofNat 1 := rfl
  rw [one]
  unfold ofNat
  exact rises_ofInt (by omega) (by omega)

theorem isNaN_one : (1 : Binary .double).isNaN = false := by
  rw [one_eq]
  rfl

theorem isZero_one : (1 : Binary .double).isZero = false := by
  rw [one_eq]
  rfl

theorem Rises.isZero_of_one {x : Binary .double} (h : (1 : Binary .double).Rises x) :
    x.isZero = false :=
  h.isZero_right isZero_one

theorem Rises.exists_of_one {x : Binary .double} (h : (1 : Binary .double).Rises x) :
    ∃ k bound, 0 < k ∧ x = number false k bound :=
  exists_of_onSide h.right h.isZero_of_one

theorem Rises.one_mul {x y : Binary .double} (hx : (1 : Binary .double).Rises x)
    (hy : (1 : Binary .double).Rises y) : (1 : Binary .double).Rises (x * y) := by
  have exact : (1 : Binary .double) * 1 = 1 := by decide +kernel
  have number := isNaN_mul_of_pos hx.isNaN_right hy.isNaN_right hx.isZero_of_one hy.isZero_of_one
  have under := hx.under.mul hy.under
  rw [exact] at under
  exact under.rises hx.isNaN_left number

theorem exists_after_one {x : Binary .double} (h : Binary.lt 1 x) :
    ∃ r bound, 1023 * double.binade + 1 ≤ r ∧ x = number false r bound := by
  have one : (1 : Binary .double).position = some ((1023 * double.binade : Nat) : Int) :=
    standsAt_one.position isNaN_one
  rw [Binary.lt, one] at h
  cases x with
  | nan => cases h
  | number s r bound =>
    cases s with
    | false =>
      have above : ((1023 * double.binade : Nat) : Int) < r := of_decide_eq_true h
      exact ⟨r, bound, by omega, rfl⟩
    | true =>
      have above : ((1023 * double.binade : Nat) : Int) < -(r : Int) := of_decide_eq_true h
      omega

/-! ## Doubling and halving -/

theorem two_eq :
    (2 : Binary .double) = number false (1024 * double.binade) (by decide) := by decide +kernel

theorem two_rises : (2 : Binary .double).Rises 2 := by
  rw [two_eq]
  exact .refl (.inl rfl)

theorem Rises.half {x y : Binary .double} (h : x.Rises y) : (x / 2).Rises (y / 2) := by
  rw [two_eq]
  exact h.div (by decide) (by decide)

theorem Rises.double {x y : Binary .double} (h : x.Rises y) : (2 * x).Rises (2 * y) := by
  have number : ∀ {z : Binary .double}, z.isNaN = false → (2 * z).isNaN = false := by
    intro z hz
    rw [two_eq]
    exact isNaN_mul rfl hz nofun fun _ => by decide
  exact (two_rises.under.mul h.under).rises (number h.isNaN_left) (number h.isNaN_right)

/-! ## Inverses -/

theorem quotientRank_anti (finite : r ≠ p.infinity) {k k' : Nat} (pos : 0 < k) (h : k ≤ k')
    (top : k' ≤ p.infinity) : p.quotientRank r k' ≤ p.quotientRank r k := by
  rw [quotientRank, quotientRank, if_neg finite, if_neg finite]
  split
  · exact Nat.zero_le _
  · rw [if_neg (by omega)]
    refine nearest_mono (units_pos (by omega)) (units_pos pos) ?_
    exact Nat.mul_le_mul_left _ (units_le h)

section Inverse

variable {x y : Binary .double}

/-- A positive number below one, and what its inverse is. -/
theorem exists_inverse (pos : Binary.lt 0 x) (h : x.lt 1) : ∃ k bound, 0 < k ∧
    k < 1023 * double.binade ∧ x = number false k bound ∧ (1 / x).isNaN = false ∧
      (1 / x).StandsAt (double.quotientRank (1023 * double.binade) k) := by
  obtain ⟨k, bound, hk, rfl⟩ := exists_of_pos pos
  have place : (number false k bound).StandsAt k := .number bound (.inl rfl)
  have below := (place.lt_iff standsAt_one rfl isNaN_one).mp h
  have finite : k < double.infinity := Nat.lt_trans below (by decide)
  exact ⟨k, bound, hk, below, rfl, isNaN_div isNaN_one bound hk finite false,
    standsAt_one.div hk bound⟩

theorem inverse_rises (pos : Binary.lt 0 x) (pos' : Binary.lt 0 y) (h : x.le y) (below : y.lt 1)
    (below' : x.lt 1) : (1 / y : Binary .double).Rises (1 / x) := by
  obtain ⟨k, bound, hk, less, rfl, number, inverse⟩ := exists_inverse pos below'
  obtain ⟨k', bound', hk', less', rfl, number', inverse'⟩ := exists_inverse pos' below
  have order : k ≤ k' := by simpa [Binary.le, position] using h
  exact Under.rises ⟨_, _, inverse', inverse, quotientRank_anti (by decide) hk order bound'⟩ number'
    number

/-- The inverse of the greatest number below one is above one already. -/
theorem one_lt_inverse (pos : Binary.lt 0 x) (h : x.lt 1) : Binary.lt 1 (1 / x) := by
  obtain ⟨k, bound, hk, less, rfl, number, inverse⟩ := exists_inverse pos h
  refine (standsAt_one.lt_iff inverse isNaN_one number).mpr (Nat.lt_of_lt_of_le ?_
    (quotientRank_anti (by decide) hk (Nat.le_sub_one_of_lt less) (by decide)))
  decide +kernel

end Inverse

end Binary

end PrivateRelease
