import PrivateRelease.Scalar

/-!
# Characters of written numbers

Numbers of every type, in every layout, are written with digits and a few other characters. No mark
that encloses or separates numbers in other texts is among them.
-/

namespace PrivateRelease

/-- A character that numbers are written with. -/
def isNumeral (c : Char) : Bool := c.isDigit || ['-', '.', 'e', 'i', 'n', 'f', 'N', 'a'].contains c

/-- A text of such characters. -/
def Written (s : String) : Prop := ∀ c ∈ s.toList, isNumeral c

/-- Texts are checked character by character, not for all characters that there are. -/
instance (s : String) : Decidable (Written s) :=
  decidable_of_iff (s.toList.all isNumeral = true) List.all_eq_true

theorem Written.not_mem {s : String} (h : Written s) {c : Char} (hc : isNumeral c = false) :
    c ∉ s.toList := fun hm => by
  rw [h c hm] at hc
  cases hc

@[simp] theorem written_append {s t : String} : Written (s ++ t) ↔ Written s ∧ Written t := by
  simp [Written, or_imp, forall_and]

theorem written_ofList {cs : List Char} : Written (String.ofList cs) ↔ ∀ c ∈ cs, isNumeral c := by
  rw [Written, String.toList_ofList]

theorem isNumeral_of_isDigit {c : Char} (h : c.isDigit) : isNumeral c := by
  rw [isNumeral, h, Bool.true_or]

theorem isNumeral_of_mem_toDigits {n : Nat} : ∀ c ∈ Nat.toDigits 10 n, isNumeral c := fun _ h =>
  isNumeral_of_isDigit (Nat.isDigit_of_mem_toDigits (by decide) (by decide) h)

@[simp] theorem written_natRepr (n : Nat) : Written n.repr := by
  rw [Written, Nat.toList_repr]
  exact isNumeral_of_mem_toDigits

@[simp] theorem written_intRepr (n : Int) : Written n.repr := by
  cases n with
  | ofNat n => exact written_natRepr n
  | negSucc n => exact written_append.mpr ⟨by decide, written_natRepr (n + 1)⟩

namespace Decimal

theorem isNumeral_digits (d : Decimal) : ∀ c ∈ d.digits, isNumeral c := isNumeral_of_mem_toDigits

theorem written_scientific (d : Decimal) : Written d.scientific := by
  have rest : ∀ c ∈ d.digits.drop 1, isNumeral c := fun c h =>
    d.isNumeral_digits c (List.mem_of_mem_drop h)
  have first : ∀ c ∈ d.digits.take 1, isNumeral c := fun c h =>
    d.isNumeral_digits c (List.mem_of_mem_take h)
  simp only [scientific, written_append, written_ofList, List.forall_mem_append, toString,
    written_intRepr, and_true]
  refine ⟨⟨first, ?_⟩, by decide⟩
  split
  · simp
  · exact List.forall_mem_cons.mpr ⟨by decide, rest⟩

theorem written_positional (d : Decimal) (wholePoint : Bool) :
    Written (d.positional wholePoint) := by
  have digits := d.isNumeral_digits
  have zeros : ∀ n, ∀ c ∈ List.replicate n '0', isNumeral c := fun n c h => by
    rw [List.eq_of_mem_replicate h]
    decide
  have tail : ∀ c ∈ (if wholePoint then ['.', '0'] else []), isNumeral c := by
    cases wholePoint <;> exact List.all_eq_true.mp (by decide)
  have before : ∀ n, ∀ c ∈ d.digits.take n, isNumeral c := fun n c h =>
    digits c (List.mem_of_mem_take h)
  have after : ∀ n, ∀ c ∈ d.digits.drop n, isNumeral c := fun n c h =>
    digits c (List.mem_of_mem_drop h)
  simp only [positional]
  split
  · simp only [written_ofList, List.forall_mem_append]
    exact ⟨⟨List.all_eq_true.mp (by decide), zeros _⟩, digits⟩
  · split
    · simp only [written_ofList, List.forall_mem_append]
      exact ⟨⟨digits, zeros _⟩, tail⟩
    · simp only [written_ofList, List.forall_mem_append]
      exact ⟨⟨before _, List.all_eq_true.mp (by decide)⟩, after _⟩

theorem written_write (l : Layout) (d : Decimal) : Written (d.write l) := by
  unfold write
  split
  · exact d.written_positional _
  · exact d.written_scientific

end Decimal

theorem Binary.written_write {p : Precision} (l : Layout) (x : Binary p) :
    Written (x.write l) := by
  cases x with
  | nan =>
    rw [write]
    decide
  | number s r h =>
    have sign : Written (if s then "-" else "") := by cases s <;> decide
    have zero : Written (if l.wholePoint then "0.0" else "0") := by cases l.wholePoint <;> decide
    simp only [write]
    split
    · exact written_append.mpr ⟨sign, zero⟩
    · split
      · exact written_append.mpr ⟨sign, by decide⟩
      · exact written_append.mpr ⟨sign, Decimal.written_write l _⟩

theorem Numeric.written_toText {q : Numeric} (x : q.Carrier) : Written (Numeric.toText x) := by
  cases q with
  | integer k => exact written_intRepr _
  | float p => exact Binary.written_write _ x

end PrivateRelease
