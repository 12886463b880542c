import Mathlib.Data.List.TakeWhile
import PrivateRelease.Descriptor.Reader

/-!
# Spacings of a text

`Spaced b text s rest`: `s` is `text` with white space in front of some of its characters, and then
`rest`. No white space comes between two name characters, so names stay whole; `b` says whether the
character before `text` is one. The steps of the reader are described by it: `eat` takes a character
that is in no name, `name` a whole name.
-/

namespace PrivateRelease

namespace Text

theorem blankRanges_lt_or_lt : ∀ a ∈ blankRanges, ∀ b ∈ alphanumericRanges,
    a.2 < b.1 ∨ b.2 < a.1 := by
  decide +kernel

theorem isAlphanumeric_of_isBlank {c : Char} (h : isBlank c) : isAlphanumeric c = false := by
  unfold isBlank at h
  unfold isAlphanumeric
  split at h
  · next hc =>
    rw [if_pos hc]
    have hn : c.toNat = 0x20 ∨ (0x9 ≤ c.toNat ∧ c.toNat ≤ 0xd) := by
      simp only [Bool.or_eq_true, Bool.and_eq_true, decide_eq_true_eq] at h
      exact h.imp_left (by rintro rfl; rfl)
    delta Char.isAlphanum Char.isAlpha Char.isUpper Char.isLower Char.isDigit
    simp only [Bool.or_eq_false_iff, Bool.and_eq_false_iff, decide_eq_false_iff_not,
      ge_iff_le, UInt32.le_iff_toNat_le]
    have : c.val.toNat = c.toNat := rfl
    simp
    omega
  · next hc =>
    rw [if_neg hc]
    simp only [inRanges, List.any_eq_true, Bool.and_eq_true, decide_eq_true_eq] at h
    obtain ⟨a, ha, h1, h2⟩ := h
    simp only [inRanges, List.any_eq_false, Bool.and_eq_true, decide_eq_true_eq]
    intro b hb
    have := blankRanges_lt_or_lt a ha b hb
    omega

end Text

namespace Descriptor

open Reader

theorem isNameChar_of_isBlank {c : Char} (h : Text.isBlank c) : isNameChar c = false := by
  have hc : c ≠ '_' ∧ c ≠ ':' := by constructor <;> (rintro rfl; revert h; decide)
  simp [isNameChar, Text.isAlphanumeric_of_isBlank h, hc]

/-- White space alone. -/
def Blank (s : List Char) : Prop := ∀ c ∈ s, Text.isBlank c

theorem Blank.nil : Blank [] := by simp [Blank]

/-- A character that ends a name and is itself read. -/
def IsMark (c : Char) : Prop := Text.isBlank c = false ∧ isNameChar c = false

theorem isMark_open : IsMark '(' := by constructor <;> decide

theorem isMark_close : IsMark ')' := by constructor <;> decide

theorem isMark_less : IsMark '<' := by constructor <;> decide

theorem isMark_greater : IsMark '>' := by constructor <;> decide

theorem isMark_comma : IsMark ',' := by constructor <;> decide

inductive Spaced : Bool → List Char → List Char → List Char → Prop where
  | nil {b : Bool} {rest : List Char} : Spaced b [] rest rest
  | cons {b : Bool} {c : Char} {w text s rest : List Char} (hw : Blank w)
      (hn : b = true → isNameChar c = true → w = []) (h : Spaced (isNameChar c) text s rest) :
      Spaced b (c :: text) (w ++ c :: s) rest

/-- `s` is `text` with white space anywhere but inside a name. -/
def IsSpacing (text s : String) : Prop := ∃ w, Blank w ∧ Spaced false text.toList s.toList w

/-! ## Skipping white space -/

theorem skipBlank_append {w : List Char} (hw : Blank w) (s : List Char) :
    skipBlank (w ++ s) = skipBlank s := by
  induction w with
  | nil => rfl
  | cons c w ih =>
    have hc : Text.isBlank c = true := hw c List.mem_cons_self
    rw [skipBlank, List.cons_append, List.dropWhile_cons, if_pos hc]
    exact ih fun x hx => hw x (List.mem_cons_of_mem c hx)

theorem skipBlank_cons {c : Char} (hc : Text.isBlank c = false) (s : List Char) :
    skipBlank (c :: s) = c :: s := by
  simp [skipBlank, hc]

theorem exists_blank_append (s : List Char) : ∃ w, Blank w ∧ s = w ++ skipBlank s :=
  ⟨s.takeWhile Text.isBlank, fun _ h => List.mem_takeWhile_imp h,
    List.takeWhile_append_dropWhile.symm⟩

theorem skipBlank_eq_nil_iff {s : List Char} : skipBlank s = [] ↔ Blank s := by
  simp [skipBlank, Blank, List.dropWhile_eq_nil_iff]

theorem eat_eq_some_iff {c : Char} (hc : IsMark c) {s rest : List Char} :
    eat c s = some rest ↔ ∃ w, Blank w ∧ s = w ++ c :: rest := by
  constructor
  · intro h
    obtain ⟨w, hw, hs⟩ := exists_blank_append s
    refine ⟨w, hw, ?_⟩
    unfold eat at h
    split at h
    · cases h
    · next x r hx =>
      split at h
      · next e => rw [hs, hx, e, Option.some.inj h]
      · cases h
  · rintro ⟨w, hw, rfl⟩
    simp [eat, skipBlank_append hw, skipBlank_cons hc.1]

theorem eat_eq_none {c x : Char} {w rest : List Char} (hw : Blank w) (hx : Text.isBlank x = false)
    (h : x ≠ c) : eat c (w ++ x :: rest) = none := by
  simp [eat, skipBlank_append hw, skipBlank_cons hx, h]

theorem eat_blank {c : Char} {w : List Char} (hw : Blank w) : eat c w = none := by
  simp [eat, skipBlank_eq_nil_iff.mpr hw]

theorem eat_length {c : Char} {s rest : List Char} (h : eat c s = some rest) :
    rest.length < s.length := by
  have hs := (List.dropWhile_suffix (l := s) Text.isBlank).length_le
  unfold eat at h
  split at h
  · cases h
  · next x r hx =>
    have hx : s.dropWhile Text.isBlank = x :: r := hx
    rw [hx, List.length_cons] at hs
    split at h
    · cases h; omega
    · cases h

/-! ## Spacings of parts -/

theorem spaced_cons_iff {c : Char} (hc : IsMark c) {b : Bool} {text s rest : List Char} :
    Spaced b (c :: text) s rest ↔ ∃ m, eat c s = some m ∧ Spaced false text m rest := by
  constructor
  · intro h
    cases h with
    | cons hw _ h =>
      rw [hc.2] at h
      exact ⟨_, (eat_eq_some_iff hc).mpr ⟨_, hw, rfl⟩, h⟩
  · rintro ⟨m, he, h⟩
    obtain ⟨w, hw, rfl⟩ := (eat_eq_some_iff hc).mp he
    exact .cons hw (by simp [hc.2]) (by rwa [hc.2])

theorem spaced_append_cons_iff {c : Char} (hc : IsMark c) {b : Bool} {t u s rest : List Char} :
    Spaced b (t ++ c :: u) s rest ↔ ∃ m, Spaced b t s m ∧ Spaced false (c :: u) m rest := by
  constructor
  · intro h
    induction t generalizing b s with
    | nil =>
      rw [List.nil_append, spaced_cons_iff hc] at h
      exact ⟨s, .nil, (spaced_cons_iff hc).mpr h⟩
    | cons a t ih =>
      cases h with
      | cons hw hn h =>
        obtain ⟨m, h1, h2⟩ := ih h
        exact ⟨m, .cons hw hn h1, h2⟩
  · rintro ⟨m, h1, h2⟩
    induction h1 with
    | nil => exact (spaced_cons_iff hc).mpr ((spaced_cons_iff hc).mp h2)
    | cons hw hn _ ih => exact .cons hw hn (ih h2)

/-- After a name character there is no white space before the rest of a name. -/
theorem spaced_word_tail_iff {word s rest : List Char} (hn : ∀ c ∈ word, isNameChar c) :
    Spaced true word s rest ↔ s = word ++ rest := by
  induction word generalizing s with
  | nil =>
    constructor
    · intro h; cases h; rfl
    · rintro rfl; exact .nil
  | cons c word ih =>
    have hc : isNameChar c = true := hn c List.mem_cons_self
    have ih := @ih
    constructor
    · intro h
      cases h with
      | cons _ he h =>
        rw [hc, ih fun x hx => hn x (List.mem_cons_of_mem c hx)] at h
        rw [he rfl hc, h]; rfl
    · rintro rfl
      refine .cons (w := []) .nil (fun _ _ => rfl) ?_
      rw [hc, ih fun x hx => hn x (List.mem_cons_of_mem c hx)]; rfl

theorem spaced_word_iff {word s rest : List Char} (hn : ∀ c ∈ word, isNameChar c)
    (h0 : word ≠ []) : Spaced false word s rest ↔ ∃ w, Blank w ∧ s = w ++ (word ++ rest) := by
  obtain ⟨c, word, rfl⟩ := List.exists_cons_of_ne_nil h0
  have hc : isNameChar c = true := hn c List.mem_cons_self
  have ht : ∀ s, Spaced true word s rest ↔ s = word ++ rest := fun _ =>
    spaced_word_tail_iff fun x hx => hn x (List.mem_cons_of_mem c hx)
  constructor
  · intro h
    cases h with
    | cons hw _ h =>
      rw [hc, ht] at h
      exact ⟨_, hw, by rw [h, List.cons_append]⟩
  · rintro ⟨w, hw, rfl⟩
    rw [List.cons_append]
    exact .cons hw (by simp) (by rw [hc, ht])

theorem spaced_self {b : Bool} (text rest : List Char) : Spaced b text (text ++ rest) rest := by
  induction text generalizing b with
  | nil => exact .nil
  | cons c text ih => exact .cons (w := []) .nil (fun _ _ => rfl) ih

theorem Spaced.length_le {b : Bool} {text s rest : List Char} (h : Spaced b text s rest) :
    rest.length ≤ s.length := by
  induction h with
  | nil => exact Nat.le_refl _
  | cons _ _ _ ih => simp only [List.length_append, List.length_cons]; omega

/-! ## Reading a name -/

theorem not_isNameChar_of_eat {c x : Char} {s rest : List Char} (hc : IsMark c)
    (h : eat c (x :: s) = some rest) : isNameChar x = false := by
  obtain ⟨w, hw, hs⟩ := (eat_eq_some_iff hc).mp h
  cases w with
  | nil => rw [List.nil_append] at hs; cases hs; exact hc.2
  | cons y w => cases hs; exact isNameChar_of_isBlank (hw x List.mem_cons_self)

theorem name_eq_ok {word rest w : List Char} (hw : Blank w) (hn : ∀ c ∈ word, isNameChar c)
    (h0 : word ≠ []) (hr : ∀ x r, rest = x :: r → isNameChar x = false) :
    name (w ++ (word ++ rest)) = .ok (String.ofList word, rest) := by
  obtain ⟨c, word, rfl⟩ := List.exists_cons_of_ne_nil h0
  have hb : Text.isBlank c = false := by
    by_contra hb
    rw [Bool.not_eq_false] at hb
    have := isNameChar_of_isBlank hb
    rw [hn c List.mem_cons_self] at this
    cases this
  have hs : skipBlank (w ++ (c :: word ++ rest)) = c :: word ++ rest := by
    rw [skipBlank_append hw, List.cons_append, skipBlank_cons hb]
  have hrest : rest.takeWhile isNameChar = [] ∧ rest.dropWhile isNameChar = rest := by
    cases rest with
    | nil => exact ⟨rfl, rfl⟩
    | cons x r => simp [hr x r rfl]
  have htake : (c :: word ++ rest).takeWhile isNameChar = c :: word := by
    rw [List.takeWhile_append_of_pos hn, hrest.1, List.append_nil]
  have hdrop : (c :: word ++ rest).dropWhile isNameChar = rest := by
    rw [List.dropWhile_append_of_pos hn, hrest.2]
  simp only [name, hs, htake, hdrop]

theorem spaced_of_name {s rest : List Char} {word : String} (h : name s = .ok (word, rest)) :
    (∀ c ∈ word.toList, isNameChar c) ∧ word.toList ≠ [] ∧
      Spaced false word.toList s rest := by
  obtain ⟨w, hw, hs⟩ := exists_blank_append s
  simp only [name] at h
  split at h
  · cases h
  · next cs hcs =>
    cases h
    rw [String.toList_ofList]
    have hn : ∀ c ∈ (skipBlank s).takeWhile isNameChar, isNameChar c = true :=
      fun _ hx => List.mem_takeWhile_imp hx
    refine ⟨hn, hcs, ?_⟩
    rw [spaced_word_iff hn hcs]
    exact ⟨w, hw, by rw [List.takeWhile_append_dropWhile]; exact hs⟩

end Descriptor

end PrivateRelease
