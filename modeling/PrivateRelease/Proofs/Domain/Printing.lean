import PrivateRelease.Proofs.Domain.Membership
import PrivateRelease.Proofs.Number.Numerals
import PrivateRelease.Proofs.Text.NulFree

/-!
# Printed domains

No printed domain is the beginning of another one, so that the parts of a domain can be told from its
text, and two domains print alike only if they are the same to the bit. Equality of structures is
coarser: it does not see the signs of zero bounds.
-/

namespace PrivateRelease

/-- Texts that a mark ends, and does not occur in, are told apart. -/
theorem append_cons_inj {c : Char} {xs ys u v : List Char} (hx : c ∉ xs) (hy : c ∉ ys)
    (h : xs ++ c :: u = ys ++ c :: v) : xs = ys ∧ u = v := by
  induction xs generalizing ys with
  | nil =>
    cases ys with
    | nil => exact ⟨rfl, (List.cons.inj h).2⟩
    | cons y ys => exact absurd (by simp [(List.cons.inj h).1]) hy
  | cons x xs ih =>
    cases ys with
    | nil => exact absurd (by simp [(List.cons.inj h).1]) hx
    | cons y ys =>
      obtain ⟨rfl, tail⟩ := List.cons.inj h
      obtain ⟨rfl, rfl⟩ :=
        ih (List.not_mem_of_not_mem_cons hx) (List.not_mem_of_not_mem_cons hy) tail
      exact ⟨rfl, rfl⟩

theorem Written.append_cons_inj {c : Char} (hc : isNumeral c = false) {s t : String}
    (hs : Written s) (ht : Written t) {u v : List Char}
    (h : s.toList ++ c :: u = t.toList ++ c :: v) : s = t ∧ u = v := by
  obtain ⟨text, rest⟩ := PrivateRelease.append_cons_inj (hs.not_mem hc) (ht.not_mem hc) h
  exact ⟨String.toList_injective text, rest⟩

theorem Numeric.name_inj {q r : Numeric} (h : q.name = r.name) : q = r := by
  have read : Primitive.ofName? q.name = some (.numeric q) := Primitive.ofName?_name (.numeric q)
  rw [h] at read
  cases read.symm.trans (Primitive.ofName?_name (.numeric r))
  rfl

theorem Numeric.greater_not_mem_name (q : Numeric) : '>' ∉ q.name.toList := fun h =>
  absurd (Primitive.isNameChar_of_mem_name (.numeric q) '>' h) (by decide)

theorem Numeric.isNaN_of_le {q : Numeric} {x y : q.Carrier} (h : le x y) :
    isNaN x = false ∧ isNaN y = false := by
  obtain ⟨i, j, hx, hy, _⟩ := le_iff.mp h
  rw [← Bool.not_eq_true, ← Bool.not_eq_true, isNaN_iff, isNaN_iff, hx, hy]
  exact ⟨by simp, by simp⟩

/-- A type in angle brackets ends where the bracket closes. -/
theorem Descriptor.chars_append_inj {d e : Descriptor} (hd : d.WellFormed) (he : e.WellFormed)
    {u v : List Char} (h : d.chars ++ '>' :: u = e.chars ++ '>' :: v) : d = e ∧ u = v := by
  have read {d : Descriptor} (hd : d.WellFormed) (u : List Char) :
      Reader.descriptor (3 * (d.chars ++ '>' :: u).length) (d.chars ++ '>' :: u) =
        .ok (d, '>' :: u) :=
    readable hd (spaced_self _ _)
      (Ends.of_eat isMark_greater (by decide)
        ((eat_eq_some_iff isMark_greater).mpr ⟨[], .nil, rfl⟩)) (Nat.le_refl _)
  have both := read hd u
  rw [h, read he v] at both
  cases both
  exact ⟨rfl, rfl⟩

namespace Domain

/-! ## Texts -/

section Texts

variable {inner d e : Domain} {ds : List Domain} {u : List Char}

theorem text_all {d : Descriptor} :
    (all d).toText.toList ++ u = "AllDomain<".toList ++ (d.chars ++ '>' :: u) := by
  show (s!"AllDomain<{d.toText}>").toList ++ u = _
  simp [toString, Descriptor.toText]

theorem text_interval {q : Numeric} {lower upper : q.Carrier} {ordered : Numeric.le lower upper} :
    (interval q lower upper ordered).toText.toList ++ u = "IntervalDomain<".toList ++
      (q.name.toList ++ '>' :: '[' :: ((Numeric.toText lower).toList ++
        ',' :: ' ' :: ((Numeric.toText upper).toList ++ ']' :: u))) := by
  show (s!"IntervalDomain<{q.name}>[{Numeric.toText lower}, {Numeric.toText upper}]").toList ++ u = _
  simp [toString]

theorem text_vector :
    (vector inner).toText.toList ++ u =
      "VectorDomain<".toList ++ (inner.toText.toList ++ '>' :: u) := by
  show (s!"VectorDomain<{inner.toText}>").toList ++ u = _
  simp [toString]

theorem text_sized {size : Nat} :
    (sized inner size).toText.toList ++ u = "SizedDomain<".toList ++ (inner.toText.toList ++
      '>' :: '[' :: ((toString size).toList ++ ']' :: u)) := by
  show (s!"SizedDomain<{inner.toText}>[{size}]").toList ++ u = _
  simp [toString]

theorem text_product :
    (product ds).toText.toList ++ u =
      "ProductDomain<".toList ++ ((listText ds).toList ++ '>' :: u) := by
  show (s!"ProductDomain<{listText ds}>").toList ++ u = _
  simp [toString]

theorem text_list_cons_cons :
    (listText (d :: e :: ds)).toList ++ u =
      d.toText.toList ++ ',' :: ' ' :: ((listText (e :: ds)).toList ++ u) := by
  simp [listText]

end Texts

/-- The first letter of the text. -/
def initial : Domain → Char
  | all _ => 'A'
  | interval .. => 'I'
  | vector _ => 'V'
  | sized .. => 'S'
  | product _ => 'P'

theorem exists_text_eq_cons (d : Domain) (u : List Char) :
    ∃ t, d.toText.toList ++ u = d.initial :: t := by
  cases d with
  | all => exact ⟨_, text_all⟩
  | interval => exact ⟨_, text_interval⟩
  | vector => exact ⟨_, text_vector⟩
  | sized => exact ⟨_, text_sized⟩
  | product => exact ⟨_, text_product⟩

theorem initial_eq {d e : Domain} {u v : List Char}
    (text : d.toText.toList ++ u = e.toText.toList ++ v) : d.initial = e.initial := by
  obtain ⟨s, hs⟩ := d.exists_text_eq_cons u
  obtain ⟨t, ht⟩ := e.exists_text_eq_cons v
  rw [hs, ht] at text
  exact (List.cons.inj text).1

theorem initial_ne_greater (d : Domain) : d.initial ≠ '>' := by
  cases d <;> simp [initial]

/-! ## Telling texts apart -/

/-- Whatever follows, only the domain itself has this text. -/
def Legible (d : Domain) : Prop := ∀ {e : Domain} {u v : List Char}, e.WellFormed →
  d.toText.toList ++ u = e.toText.toList ++ v → d = e ∧ u = v

theorem ne_nil_of_list_text {ds : List Domain} {u v : List Char}
    (text : (listText ds).toList ++ u = '>' :: v) : ds = [] := by
  cases ds with
  | nil => rfl
  | cons d ds =>
    obtain ⟨rest, first⟩ : ∃ rest, (listText (d :: ds)).toList ++ u = d.toText.toList ++ rest := by
      cases ds with
      | nil => exact ⟨u, rfl⟩
      | cons => exact ⟨_, text_list_cons_cons⟩
    obtain ⟨t, initial⟩ := d.exists_text_eq_cons rest
    rw [first, initial] at text
    exact absurd (List.cons.inj text).1 d.initial_ne_greater

theorem eq_of_list_text {ds es : List Domain} (hd : ∀ d ∈ ds, d.Legible)
    (he : ∀ e ∈ es, e.WellFormed) {u v : List Char}
    (text : (listText ds).toList ++ '>' :: u = (listText es).toList ++ '>' :: v) :
    ds = es ∧ u = v := by
  induction ds generalizing es with
  | nil =>
    cases ne_nil_of_list_text text.symm
    exact ⟨rfl, (List.cons.inj text).2⟩
  | cons d ds ih =>
    cases es with
    | nil => cases ne_nil_of_list_text text
    | cons e es =>
      have first : d.Legible := hd d List.mem_cons_self
      have he₁ := he e List.mem_cons_self
      cases ds with
      | nil =>
        cases es with
        | nil =>
          obtain ⟨rfl, rest⟩ := first he₁ text
          exact ⟨rfl, (List.cons.inj rest).2⟩
        | cons =>
          rw [text_list_cons_cons] at text
          exact absurd (List.cons.inj (first he₁ text).2).1 (by decide)
      | cons =>
        cases es with
        | nil =>
          rw [text_list_cons_cons] at text
          exact absurd (List.cons.inj (first he₁ text).2).1 (by decide)
        | cons =>
          rw [text_list_cons_cons, text_list_cons_cons] at text
          obtain ⟨rfl, rest⟩ := first he₁ text
          have rest := (List.cons.inj (List.cons.inj rest).2).2
          obtain ⟨more, rfl⟩ := ih (fun d h => hd d (List.mem_cons_of_mem _ h))
            (fun e h => he e (List.mem_cons_of_mem _ h)) rest
          exact ⟨congrArg _ more, rfl⟩

theorem legible_all {d : Descriptor} (hd : d.WellFormed) : (all d).Legible := by
  intro e u v he text
  have kind := initial_eq text
  cases he with
  | all he =>
    rw [text_all, text_all] at text
    obtain ⟨rfl, rfl⟩ := Descriptor.chars_append_inj hd he (List.append_cancel_left text)
    exact ⟨rfl, rfl⟩
  | _ => simp [initial] at kind

theorem legible_interval {q : Numeric} {lower upper : q.Carrier} {ordered : Numeric.le lower upper} :
    (interval q lower upper ordered).Legible := by
  intro e u v he text
  have kind := initial_eq text
  cases he with
  | @interval r lower' upper' ordered' =>
    rw [text_interval, text_interval] at text
    obtain ⟨name, text⟩ := append_cons_inj q.greater_not_mem_name r.greater_not_mem_name
      (List.append_cancel_left text)
    cases Numeric.name_inj (String.toList_injective name)
    have text := (List.cons.inj text).2
    obtain ⟨low, text⟩ := (Numeric.written_toText lower).append_cons_inj (by decide)
      (Numeric.written_toText lower') text
    have text := (List.cons.inj text).2
    obtain ⟨high, rfl⟩ := (Numeric.written_toText upper).append_cons_inj (by decide)
      (Numeric.written_toText upper') text
    obtain ⟨hl, hu⟩ := Numeric.isNaN_of_le ordered
    obtain ⟨hl', hu'⟩ := Numeric.isNaN_of_le ordered'
    cases Numeric.toText_inj hl hl' low
    cases Numeric.toText_inj hu hu' high
    exact ⟨rfl, rfl⟩
  | _ => simp [initial] at kind

theorem WellFormed.legible {d : Domain} (h : d.WellFormed) : d.Legible := by
  induction h with
  | all h => exact legible_all h
  | interval => exact legible_interval
  | vector _ ih =>
    intro e u v he text
    have kind := initial_eq text
    cases he with
    | vector he =>
      rw [text_vector, text_vector] at text
      obtain ⟨rfl, rest⟩ := ih he (List.append_cancel_left text)
      exact ⟨rfl, (List.cons.inj rest).2⟩
    | _ => simp [initial] at kind
  | @sized _ size _ ih =>
    intro e u v he text
    have kind := initial_eq text
    cases he with
    | @sized _ size' he =>
      rw [text_sized, text_sized] at text
      obtain ⟨rfl, rest⟩ := ih he (List.append_cancel_left text)
      have rest := (List.cons.inj (List.cons.inj rest).2).2
      obtain ⟨digits, rfl⟩ := (written_natRepr size).append_cons_inj (by decide)
        (written_natRepr size') rest
      cases Int.ofNat.inj (toString_int_injective digits)
      exact ⟨rfl, rfl⟩
    | _ => simp [initial] at kind
  | product _ ih =>
    intro e u v he text
    have kind := initial_eq text
    cases he with
    | product he =>
      rw [text_product, text_product] at text
      obtain ⟨rfl, rfl⟩ := eq_of_list_text ih he (List.append_cancel_left text)
      exact ⟨rfl, rfl⟩
    | _ => simp [initial] at kind

theorem toText_injective {d e : Domain} (hd : d.WellFormed) (he : e.WellFormed)
    (h : d.toText = e.toText) : d = e := by
  have text := congrArg (fun s => String.toList s ++ []) h
  exact (hd.legible he text).1

end Domain

/-! ## Signs of zeros -/

namespace Numeric

variable {q : Numeric} {x y : q.Carrier}

/-- The sign of a zero that has one. -/
def zeroSign : {q : Numeric} → q.Carrier → Option Bool
  | integer _, _ => none
  | float _, x => if Binary.isZero x then some (Binary.isNegative x) else none

theorem same_self (hx : isNaN x = false) : same x x := by
  rw [← Bool.not_eq_true, isNaN_iff, ← ne_eq, Option.ne_none_iff_exists'] at hx
  obtain ⟨i, hi⟩ := hx
  exact same_iff.mpr ⟨i, hi, hi⟩

/-- Equal numbers are the same, but for the signs of zeros. -/
theorem eq_of_same (h : same x y) (sign : zeroSign x = zeroSign y) : x = y := by
  cases q with
  | integer k => exact beq_iff_eq.mp h
  | float p =>
    obtain ⟨i, hx, hy⟩ := same_iff.mp h
    match x, y with
    | .number s r _, .number s' r' _ =>
      simp only [zeroSign, Binary.isZero, Binary.isNegative, beq_iff_eq] at sign
      simp only [place, Binary.position, Option.some.injEq] at hx hy
      rw [Binary.number.injEq]
      by_cases zero : r = 0
      · obtain rfl : r' = 0 := by grind
        exact ⟨by simpa [zero] using sign, zero⟩
      · grind

end Numeric

namespace Domain

mutual

/-- The signs of the bounds that are zeros, from left to right. -/
def zeroSigns : Domain → List (Option Bool)
  | all _ => []
  | interval _ lower upper _ => [Numeric.zeroSign lower, Numeric.zeroSign upper]
  | vector inner => inner.zeroSigns
  | sized inner _ => inner.zeroSigns
  | product parts => zeroSignsList parts

def zeroSignsList : List Domain → List (Option Bool)
  | [] => []
  | d :: ds => d.zeroSigns ++ zeroSignsList ds

end

mutual

theorem same_self (d : Domain) : d.same d := by
  match d with
  | all d => simp [same]
  | interval q lower upper ordered =>
    obtain ⟨hl, hu⟩ := Numeric.isNaN_of_le ordered
    simp [same, Numeric.same_self hl, Numeric.same_self hu]
  | vector inner => simpa [same] using inner.same_self
  | sized inner size => simpa [same] using inner.same_self
  | product parts => simpa [same] using sameList_self parts

theorem sameList_self (ds : List Domain) : sameList ds ds := by
  match ds with
  | [] => rfl
  | d :: ds => simp [sameList, d.same_self, sameList_self ds]

end

mutual

/-- Equal domains are the same, but for the signs of zeros. -/
theorem eq_of_same {d e : Domain} (h : d.same e) {u v : List (Option Bool)}
    (signs : d.zeroSigns ++ u = e.zeroSigns ++ v) : d = e ∧ u = v := by
  match d with
  | all d =>
    cases e with
    | all e =>
      simp only [same, beq_iff_eq] at h
      exact ⟨congrArg _ h, signs⟩
    | _ => cases h
  | interval q lower upper _ =>
    cases e with
    | interval r _ _ _ =>
      rw [same] at h
      split at h
      · next hq =>
        subst hq
        obtain ⟨hl, hu⟩ := Bool.and_eq_true_iff.mp h
        obtain ⟨sl, signs⟩ := List.cons.inj signs
        obtain ⟨su, rest⟩ := List.cons.inj signs
        cases Numeric.eq_of_same hl sl
        cases Numeric.eq_of_same hu su
        exact ⟨rfl, rest⟩
      · cases h
    | _ => cases h
  | vector d =>
    cases e with
    | vector e =>
      rw [same] at h
      obtain ⟨rfl, rest⟩ := eq_of_same h signs
      exact ⟨rfl, rest⟩
    | _ => cases h
  | sized d n =>
    cases e with
    | sized e m =>
      simp only [same, Bool.and_eq_true, beq_iff_eq] at h
      obtain ⟨rfl, rest⟩ := eq_of_same h.1 signs
      exact ⟨congrArg _ h.2, rest⟩
    | _ => cases h
  | product ds =>
    cases e with
    | product es =>
      rw [same] at h
      obtain ⟨rfl, rest⟩ := eq_of_sameList h signs
      exact ⟨rfl, rest⟩
    | _ => cases h

theorem eq_of_sameList {ds es : List Domain} (h : sameList ds es) {u v : List (Option Bool)}
    (signs : zeroSignsList ds ++ u = zeroSignsList es ++ v) : ds = es ∧ u = v := by
  match ds, es with
  | [], [] => exact ⟨rfl, signs⟩
  | d :: ds, e :: es =>
    simp only [sameList, Bool.and_eq_true] at h
    rw [zeroSignsList, zeroSignsList, List.append_assoc, List.append_assoc] at signs
    obtain ⟨rfl, more⟩ := eq_of_same h.1 signs
    obtain ⟨rfl, rest⟩ := eq_of_sameList h.2 more
    exact ⟨rfl, rest⟩
  | [], _ :: _ => cases h
  | _ :: _, [] => cases h

end

/-- Domains print alike if and only if they are equal and so are the signs of their zeros. -/
theorem toText_eq_iff {d e : Domain} (hd : d.WellFormed) (he : e.WellFormed) :
    d.toText = e.toText ↔ d.same e ∧ d.zeroSigns = e.zeroSigns := by
  constructor
  · intro text
    cases toText_injective hd he text
    exact ⟨d.same_self, rfl⟩
  · rintro ⟨h, signs⟩
    rw [(eq_of_same h (congrArg (· ++ []) signs)).1]

end Domain

theorem Metric.toText_eq_iff {m n : Metric} : m.toText = n.toText ↔ m = n := by
  refine ⟨fun h => ?_, congrArg _⟩
  have descriptor := Descriptor.toText_injective m.wellFormed n.wellFormed h
  have read := ofDescriptor?_descriptor m
  rw [descriptor, ofDescriptor?_descriptor] at read
  exact (Option.some.inj read).symm

theorem Measure.toText_eq_iff {m n : Measure} : m.toText = n.toText ↔ m = n := by
  refine ⟨fun h => ?_, congrArg _⟩
  have descriptor := Descriptor.toText_injective m.wellFormed n.wellFormed h
  have read := ofDescriptor?_descriptor m
  rw [descriptor, ofDescriptor?_descriptor] at read
  exact (Option.some.inj read).symm

end PrivateRelease
