import Mathlib.Data.Nat.Sqrt
import PrivateRelease.Proofs.Number.Rounding

/-!
# Monotone rounding

A larger quotient is rounded to no smaller rank, and a larger number has no smaller root. Within a
binade it is the significand that grows; across binades the power of two between them separates the
ranks.
-/

namespace PrivateRelease

namespace Precision

variable {p : Precision} {num den num' den' : Nat}

/-! ## Rounding -/

theorem div_le_div_of_mul_le (hden : 0 < den) (hden' : 0 < den') (h : num * den' ≤ num' * den) :
    num / den ≤ num' / den' := by
  rw [Nat.le_div_iff_mul_le hden']
  refine Nat.le_of_mul_le_mul_right ?_ hden
  calc num / den * den' * den = num / den * den * den' := by ac_rfl
    _ ≤ num * den' := Nat.mul_le_mul_right _ (Nat.div_mul_le_self num den)
    _ ≤ num' * den := h

/-- Where whole parts are equal the fractions decide. -/
theorem mod_mul_le_of_div_eq (h : num * den' ≤ num' * den) (hq : num / den = num' / den') :
    num % den * den' ≤ num' % den' * den := by
  have left := congrArg (· * den') (Nat.div_add_mod num den)
  have right := congrArg (· * den) (Nat.div_add_mod num' den')
  simp only [Nat.add_mul] at left right
  have whole : den * (num / den) * den' = den' * (num' / den') * den := by
    rw [hq]
    ac_rfl
  omega

theorem roundEven_mono (hden : 0 < den) (hden' : 0 < den') (h : num * den' ≤ num' * den) :
    roundEven num den ≤ roundEven num' den' := by
  rcases Nat.eq_or_lt_of_le (div_le_div_of_mul_le hden hden' h) with hq | hq
  case inr =>
    exact Nat.le_trans (roundEven_le_succ num den) (Nat.le_trans hq (le_roundEven num' den'))
  have fractions := mod_mul_le_of_div_eq h hq
  -- Twice the fractions compare with one as the fractions do with each other.
  have above : compare (2 * (num % den)) den = .gt → compare (2 * (num' % den')) den' = .gt := by
    intro hgt
    rw [Nat.compare_eq_gt] at hgt ⊢
    refine Nat.lt_of_mul_lt_mul_right (a := den) ?_
    calc den' * den = den * den' := Nat.mul_comm _ _
      _ < 2 * (num % den) * den' := Nat.mul_lt_mul_of_pos_right hgt hden'
      _ = 2 * (num % den * den') := Nat.mul_assoc _ _ _
      _ ≤ 2 * (num' % den' * den) := Nat.mul_le_mul_left 2 fractions
      _ = 2 * (num' % den') * den := (Nat.mul_assoc _ _ _).symm
  have tie : compare (2 * (num % den)) den = .eq → compare (2 * (num' % den')) den' ≠ .lt := by
    intro heq hlt
    rw [Nat.compare_eq_eq] at heq
    rw [Nat.compare_eq_lt] at hlt
    refine Nat.lt_irrefl (den' * den) ?_
    calc den' * den = 2 * (num % den) * den' := by rw [heq, Nat.mul_comm]
      _ = 2 * (num % den * den') := Nat.mul_assoc _ _ _
      _ ≤ 2 * (num' % den' * den) := Nat.mul_le_mul_left 2 fractions
      _ = 2 * (num' % den') * den := (Nat.mul_assoc _ _ _).symm
      _ < den' * den := Nat.mul_lt_mul_of_pos_right hlt hden
  unfold roundEven
  rw [hq]
  generalize compare (2 * (num % den)) den = c at above tie
  generalize compare (2 * (num' % den')) den' = c' at above tie
  cases c <;> cases c' <;> simp at above tie ⊢
  omega

theorem log2_mono {m n : Nat} (h : m ≤ n) : m.log2 ≤ n.log2 := by
  rcases Nat.eq_zero_or_pos m with rfl | pos
  · exact Nat.zero_le _
  · exact (Nat.le_log2 (by omega)).mpr (Nat.le_trans (Nat.log2_self_le (by omega)) h)

/-- A larger quotient has no smaller nearest number. -/
theorem nearest_mono (hden : 0 < den) (hden' : 0 < den') (h : num * den' ≤ num' * den) :
    p.nearest num den ≤ p.nearest num' den' := by
  have quotients := div_le_div_of_mul_le hden hden' h
  have logs := log2_mono quotients
  rcases Nat.eq_or_lt_of_le (Nat.sub_le_sub_right logs p.fractionBits) with same | larger
  · unfold nearest
    dsimp only
    rw [same]
    generalize (num' / den').log2 - p.fractionBits = e
    have scaled : num * (den' * 2 ^ e) ≤ num' * (den * 2 ^ e) := by
      rw [← Nat.mul_assoc, ← Nat.mul_assoc]
      exact Nat.mul_le_mul_right _ h
    have unit := Nat.two_pow_pos e
    have rounded := roundEven_mono (Nat.mul_pos hden unit) (Nat.mul_pos hden' unit) scaled
    omega
  -- The larger quotient is in a higher binade, and a binade ends where the next one begins.
  · obtain ⟨k, hk⟩ : ∃ k, (num' / den').log2 = k + 1 := ⟨_, (Nat.sub_add_cancel (by omega)).symm⟩
    have below : num < 2 ^ (k + 1) * den := by
      rw [← Nat.div_lt_iff_lt_mul hden]
      exact Nat.lt_of_lt_of_le Nat.lt_log2_self (Nat.pow_le_pow_right (by omega) (by omega))
    have above : 2 ^ (k + 1) * den' ≤ num' := by
      rw [← Nat.le_div_iff_mul_le hden', ← hk]
      exact Nat.log2_self_le fun zero => by simp [zero] at hk
    have left := nearest_le_of_lt (p := p) hden (by omega) below
    have right := le_nearest (p := p) hden' (by omega) above
    exact Nat.le_trans (Nat.le_min.mpr ⟨left, p.nearest_le num den⟩) right

theorem nearest_zero (p : Precision) {den : Nat} (hden : 0 < den) : p.nearest 0 den = 0 := by
  have exact := nearest_units (p := p) (Nat.zero_le _) hden
  rwa [units_zero, Nat.zero_mul] at exact

/-! ## Roots -/

theorem four_pow_eq (e : Nat) : 4 ^ e = 2 ^ e * 2 ^ e := by
  rw [← Nat.mul_pow]

open Binary (rootNearest)

theorem sqrt_le_rootNearest (n e : Nat) : (n / 4 ^ e).sqrt ≤ rootNearest n e := by
  unfold rootNearest
  dsimp only
  split <;> omega

theorem rootNearest_le_succ (n e : Nat) : rootNearest n e ≤ (n / 4 ^ e).sqrt + 1 := by
  unfold rootNearest
  dsimp only
  split <;> omega

theorem rootNearest_mono {n n' : Nat} (e : Nat) (h : n ≤ n') :
    rootNearest n e ≤ rootNearest n' e := by
  have roots : (n / 4 ^ e).sqrt ≤ (n' / 4 ^ e).sqrt := Nat.sqrt_le_sqrt (Nat.div_le_div_right h)
  rcases Nat.eq_or_lt_of_le roots with same | larger
  · unfold rootNearest
    rw [same]
    dsimp only
    split
    · rw [if_pos (by omega)]
    · split <;> omega
  · exact Nat.le_trans (rootNearest_le_succ n e) (Nat.le_trans larger (sqrt_le_rootNearest n' e))

/-- The rank of the number nearest to the root of `n`, as `sqrt` finds it. -/
def rootRank (p : Precision) (n : Nat) : Nat :=
  (n.sqrt.log2 - p.fractionBits) * p.binade + rootNearest n (n.sqrt.log2 - p.fractionBits)

theorem rootRank_zero (p : Precision) : p.rootRank 0 = 0 := by
  have root : Nat.sqrt 0 = 0 := rfl
  simp [rootRank, rootNearest, root]

theorem rootRank_le (p : Precision) (n : Nat) :
    p.rootRank n ≤ (n.sqrt.log2 - p.fractionBits + 2) * p.binade := by
  unfold rootRank
  generalize he : n.sqrt.log2 - p.fractionBits = e
  have top : n.sqrt < 2 ^ (p.fractionBits + 1 + e) :=
    Nat.lt_of_lt_of_le Nat.lt_log2_self (Nat.pow_le_pow_right (by omega) (by omega))
  have below : (n / 4 ^ e).sqrt < 2 * p.binade := by
    rw [binade_eq, ← Nat.pow_succ', Nat.sqrt_lt, Nat.div_lt_iff_lt_mul (Nat.pow_pos (by omega)),
      four_pow_eq, Nat.mul_mul_mul_comm, ← Nat.pow_add]
    exact Nat.sqrt_lt.mp top
  have near := rootNearest_le_succ n e
  rw [Nat.add_mul]
  omega

theorem le_rootRank {n : Nat} (h : p.fractionBits < n.sqrt.log2) :
    (n.sqrt.log2 - p.fractionBits + 1) * p.binade ≤ p.rootRank n := by
  unfold rootRank
  generalize he : n.sqrt.log2 - p.fractionBits = e
  have bottom : 2 ^ (p.fractionBits + e) ≤ n.sqrt := by
    rw [show p.fractionBits + e = n.sqrt.log2 by omega]
    exact Nat.log2_self_le fun zero => by simp [zero] at h
  have above : p.binade ≤ (n / 4 ^ e).sqrt := by
    rw [Nat.le_sqrt, Nat.le_div_iff_mul_le (Nat.pow_pos (by omega)), four_pow_eq,
      Nat.mul_mul_mul_comm, binade_eq, ← Nat.pow_add]
    exact Nat.le_sqrt.mp bottom
  have near := sqrt_le_rootNearest n e
  rw [Nat.add_mul]
  omega

/-- A larger number has no smaller root. -/
theorem rootRank_mono {n n' : Nat} (h : n ≤ n') : p.rootRank n ≤ p.rootRank n' := by
  have logs := log2_mono (Nat.sqrt_le_sqrt h)
  rcases Nat.eq_or_lt_of_le (Nat.sub_le_sub_right logs p.fractionBits) with same | larger
  · unfold rootRank
    rw [same]
    exact Nat.add_le_add_left (rootNearest_mono _ h) _
  · refine Nat.le_trans (p.rootRank_le n) (Nat.le_trans ?_ (le_rootRank (p := p) (n := n') (by omega)))
    exact Nat.mul_le_mul_right _ (by omega)

end Precision

end PrivateRelease
