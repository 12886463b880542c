import PrivateRelease.Number.Binary

/-!
# The interchange word

A number as a word of the format: the sign in the highest bit, below it the rank. The words above
infinity's are the NaNs. Words and numbers are in bijection.
-/

namespace PrivateRelease

open Precision

namespace Binary

variable {p : Precision}

def signBit (p : Precision) : Nat := 2 ^ (p.fractionBits + p.exponentBits)

theorem infinity_add_binade (p : Precision) : p.infinity + p.binade = signBit p := by
  cases p <;> decide

theorem signBit_pos (p : Precision) : 0 < signBit p := Nat.two_pow_pos _

/-- The word without its sign. -/
def magnitudeBits : Binary p → Nat
  | nan _ n _ => p.infinity + n
  | number _ r _ => r

def toBits (x : Binary p) : Nat := (if x.isNegative then signBit p else 0) + x.magnitudeBits

/-- The number of a sign and a magnitude. -/
def ofMagnitude (negative : Bool) (magnitude : Nat) (h : magnitude < signBit p) : Binary p :=
  if hr : magnitude ≤ p.infinity then .number negative magnitude hr
  else .nan negative (magnitude - p.infinity) (by have := infinity_add_binade p; omega)

def ofBits (w : Nat) : Binary p :=
  ofMagnitude (decide (signBit p ≤ w)) (w % signBit p) (Nat.mod_lt _ (signBit_pos p))

theorem magnitudeBits_lt (x : Binary p) : x.magnitudeBits < signBit p := by
  have hs := infinity_add_binade p
  have hb := p.binade_pos
  cases x with
  | nan s n h => exact hs ▸ Nat.add_lt_add_left h.2 _
  | number s r h => exact hs ▸ Nat.lt_of_le_of_lt h (Nat.lt_add_of_pos_right hb)

theorem isNegative_ofMagnitude (s : Bool) (m : Nat) (h : m < signBit p) :
    (ofMagnitude s m h).isNegative = s := by
  unfold ofMagnitude
  split <;> rfl

theorem magnitudeBits_ofMagnitude (s : Bool) (m : Nat) (h : m < signBit p) :
    (ofMagnitude s m h).magnitudeBits = m := by
  unfold ofMagnitude
  split
  · rfl
  · rename_i hr
    exact Nat.add_sub_cancel' (Nat.le_of_lt (Nat.lt_of_not_le hr))

theorem ofMagnitude_magnitudeBits (x : Binary p) :
    ofMagnitude x.isNegative x.magnitudeBits x.magnitudeBits_lt = x := by
  cases x with
  | nan s n h =>
    have hn : ¬ p.infinity + n ≤ p.infinity := by omega
    simp [ofMagnitude, magnitudeBits, isNegative, hn]
  | number s r h => simp [ofMagnitude, magnitudeBits, isNegative, h]

theorem toBits_lt (x : Binary p) : x.toBits < 2 * signBit p := by
  have h := x.magnitudeBits_lt
  unfold toBits
  split <;> omega

theorem toBits_mod (x : Binary p) : x.toBits % signBit p = x.magnitudeBits := by
  have h := x.magnitudeBits_lt
  unfold toBits
  split
  · rw [Nat.add_mod_left, Nat.mod_eq_of_lt h]
  · rw [Nat.zero_add, Nat.mod_eq_of_lt h]

theorem signBit_le_toBits (x : Binary p) : signBit p ≤ x.toBits ↔ x.isNegative = true := by
  have h := x.magnitudeBits_lt
  unfold toBits
  split
  · simp_all
  · simp_all

theorem ofBits_toBits (x : Binary p) : ofBits x.toBits = x := by
  have hs : decide (signBit p ≤ x.toBits) = x.isNegative := by simp [signBit_le_toBits]
  simp only [ofBits, toBits_mod, hs, ofMagnitude_magnitudeBits]

theorem toBits_ofBits {w : Nat} (h : w < 2 * signBit p) : (ofBits w : Binary p).toBits = w := by
  simp only [ofBits, toBits, isNegative_ofMagnitude, magnitudeBits_ofMagnitude, decide_eq_true_eq]
  split
  · rename_i hs
    rw [Nat.mod_eq_sub_mod hs, Nat.mod_eq_of_lt (by omega)]
    omega
  · rename_i hs
    rw [Nat.mod_eq_of_lt (Nat.lt_of_not_le hs), Nat.zero_add]

end Binary

end PrivateRelease
