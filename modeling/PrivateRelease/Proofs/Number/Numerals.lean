import PrivateRelease.Scalar
import PrivateRelease.Proofs.Number.Shortest

/-!
# Numerals

A written number can be taken apart again, in the way that numbers are read, into a decimal of the same
value. Different numbers of a type are therefore written differently, up to NaNs.
-/

namespace PrivateRelease

open Binary (spanDigits digitsToNat splitSign readExponent?)

/-! ## Digits -/

theorem digitsToNat_eq (cs : List Char) : digitsToNat cs = Nat.ofDigitChars 10 cs 0 :=
  (Nat.ofDigitChars_eq_foldl).symm

theorem digitsToNat_append (cs ds : List Char) :
    digitsToNat (cs ++ ds) = 10 ^ ds.length * digitsToNat cs + digitsToNat ds := by
  rw [digitsToNat_eq, digitsToNat_eq, digitsToNat_eq, Nat.ofDigitChars_append,
    Nat.ofDigitChars_eq_ofDigitChars_zero]

theorem digitsToNat_zeros (n : Nat) : digitsToNat (List.replicate n '0') = 0 := by
  rw [digitsToNat_eq, Nat.ofDigitChars_replicate_zero, Nat.mul_zero]

theorem isDigit_toDigits (n : Nat) : ∀ c ∈ Nat.toDigits 10 n, c.isDigit := fun _ =>
  Nat.isDigit_of_mem_toDigits (by decide) (by decide)

/-- No digit comes first. -/
def NoDigit (rest : List Char) : Prop := ∀ c ∈ rest.head?, c.isDigit = false

theorem spanDigits_append {ds rest : List Char} (digits : ∀ c ∈ ds, c.isDigit)
    (stop : NoDigit rest) : spanDigits (ds ++ rest) = (ds, rest) := by
  have none : rest.takeWhile Char.isDigit = [] ∧ rest.dropWhile Char.isDigit = rest := by
    cases rest with
    | nil => exact ⟨rfl, rfl⟩
    | cons c rest =>
      have := stop c rfl
      simp [this]
  rw [spanDigits, List.takeWhile_append_of_pos digits, List.dropWhile_append_of_pos digits, none.1,
    none.2, List.append_nil]

theorem spanDigits_self {ds : List Char} (digits : ∀ c ∈ ds, c.isDigit) :
    spanDigits ds = (ds, []) := by
  have ended : spanDigits (ds ++ []) = (ds, []) := spanDigits_append digits (by simp [NoDigit])
  rwa [List.append_nil] at ended

theorem splitSign_digits {ds : List Char} (digits : ∀ c ∈ ds, c.isDigit) :
    splitSign ds = (false, ds) := by
  unfold splitSign
  split
  · exact absurd (digits '-' List.mem_cons_self) (by decide)
  · exact absurd (digits '+' List.mem_cons_self) (by decide)
  · rfl

theorem toList_toString (n : Nat) : (toString n).toList = Nat.toDigits 10 n := by
  rw [Nat.toString_eq_ofList_toDigits, String.toList_ofList]

/-- An exponent reads back. -/
theorem readExponent?_toString (n : Int) : readExponent? ('e' :: (toString n).toList) = some n := by
  have some (m : Nat) : (Nat.toDigits 10 m).isEmpty = false := by
    simp [Nat.toDigits_ne_nil]
  have value (m : Nat) : digitsToNat (Nat.toDigits 10 m) = m := by
    rw [digitsToNat_eq, Nat.ofDigitChars_ten_toDigits]
  cases n with
  | ofNat m =>
    have text : (toString (Int.ofNat m)).toList = Nat.toDigits 10 m := toList_toString m
    rw [text, readExponent?]
    simp [splitSign_digits (isDigit_toDigits m), spanDigits_self (isDigit_toDigits m), some, value]
  | negSucc m =>
    have text : (toString (Int.negSucc m)).toList = '-' :: Nat.toDigits 10 (m + 1) := by
      show ("-" ++ toString (m + 1)).toList = _
      rw [String.toList_append, toList_toString]
      rfl
    rw [text, readExponent?]
    simp [splitSign, spanDigits_self (isDigit_toDigits (m + 1)), some, value, Int.negSucc_eq]

/-! ## Decimals -/

namespace Decimal

section Parts

variable {whole fraction rest : List Char}

theorem ofNumeral?_point (hw : ∀ c ∈ whole, c.isDigit) (hf : ∀ c ∈ fraction, c.isDigit)
    (some : whole ≠ []) (stop : NoDigit rest) :
    ofNumeral? (whole ++ '.' :: (fraction ++ rest)) = (readExponent? rest).map fun e =>
      ⟨digitsToNat (whole ++ fraction), e - fraction.length⟩ := by
  have point : NoDigit ('.' :: (fraction ++ rest)) := by simp [NoDigit]
  rw [ofNumeral?, spanDigits_append hw point]
  simp [spanDigits_append hf stop, some]

theorem ofNumeral?_fraction (hw : ∀ c ∈ whole, c.isDigit) (hf : ∀ c ∈ fraction, c.isDigit)
    (some : whole ≠ []) : ofNumeral? (whole ++ '.' :: fraction) =
      .some ⟨digitsToNat (whole ++ fraction), -fraction.length⟩ := by
  have ended : NoDigit [] := by simp [NoDigit]
  have point := ofNumeral?_point hw hf some ended
  rwa [List.append_nil, readExponent?, Option.map_some, zero_sub] at point

theorem ofNumeral?_whole (hw : ∀ c ∈ whole, c.isDigit) (some : whole ≠ []) (stop : NoDigit rest)
    (noPoint : ∀ c ∈ rest.head?, c ≠ '.') :
    ofNumeral? (whole ++ rest) = (readExponent? rest).map fun e => ⟨digitsToNat whole, e⟩ := by
  rw [ofNumeral?, spanDigits_append hw stop]
  dsimp only
  split
  · exact absurd rfl (noPoint '.' rfl)
  · simp [some]

end Parts

theorem isDigit_digits (d : Decimal) : ∀ c ∈ d.digits, c.isDigit := isDigit_toDigits d.significand

theorem digits_ne_nil (d : Decimal) : d.digits ≠ [] := Nat.toDigits_ne_nil

theorem digitsToNat_digits (d : Decimal) : digitsToNat d.digits = d.significand := by
  rw [digitsToNat_eq, digits, Nat.ofDigitChars_ten_toDigits]

theorem length_digits_pos (d : Decimal) : 0 < d.digits.length :=
  List.length_pos_iff.mpr d.digits_ne_nil

theorem ofNumeral?_scientific (d : Decimal) : ofNumeral? d.scientific.toList = some d := by
  have digits := d.isDigit_digits
  have value := d.digitsToNat_digits
  have long := d.length_digits_pos
  have first : ∀ c ∈ d.digits.take 1, c.isDigit := fun c hc => digits c (List.mem_of_mem_take hc)
  have rest : ∀ c ∈ d.digits.drop 1, c.isDigit := fun c hc => digits c (List.mem_of_mem_drop hc)
  have some : d.digits.take 1 ≠ [] := by simp [d.digits_ne_nil]
  have stop : NoDigit ('e' :: (toString d.order).toList) := by simp [NoDigit]
  have exponent : d.order - (d.digits.drop 1).length = d.exponent := by
    rw [order, List.length_drop]
    omega
  have text : d.scientific.toList = d.digits.take 1 ++
      ((if (d.digits.drop 1).isEmpty then [] else '.' :: d.digits.drop 1) ++
        'e' :: (toString d.order).toList) := by
    simp [scientific]
  rw [text]
  split
  · next one =>
    have one : d.digits.drop 1 = [] := by simpa using one
    have whole : d.digits.take 1 = d.digits := by
      rw [← List.take_append_drop 1 d.digits, one]
      simp
    rw [List.nil_append, ofNumeral?_whole first some stop (by simp), readExponent?_toString, whole,
      value]
    rw [one, List.length_nil, Nat.cast_zero, sub_zero] at exponent
    rw [Option.map_some, exponent]
  · rw [List.cons_append, ofNumeral?_point first rest some stop, readExponent?_toString,
      List.take_append_drop, value, Option.map_some, exponent]

section Positional

variable {d : Decimal} {n : Nat}

theorem isDigit_zeros (n : Nat) : ∀ c ∈ List.replicate n '0', c.isDigit := fun c hc => by
  rw [List.eq_of_mem_replicate hc]
  rfl

theorem ofNumeral?_below_one (exponent : d.exponent = -(n + d.digits.length : Nat)) :
    ofNumeral? (['0'] ++ '.' :: (List.replicate n '0' ++ d.digits)) = some d := by
  have fraction : ∀ c ∈ List.replicate n '0' ++ d.digits, c.isDigit :=
    List.forall_mem_append.mpr ⟨isDigit_zeros n, d.isDigit_digits⟩
  have significand : digitsToNat (['0'] ++ (List.replicate n '0' ++ d.digits)) = d.significand := by
    rw [digitsToNat_append, digitsToNat_append, digitsToNat_zeros, d.digitsToNat_digits]
    simp [digitsToNat]
  rw [ofNumeral?_fraction (by simp) fraction (by simp), significand, List.length_append,
    List.length_replicate, ← exponent]

/-- A whole number gets a zero behind the point, which makes its significand ten times as large. -/
theorem ofNumeral?_whole_point (n : Nat) :
    ofNumeral? ((d.digits ++ List.replicate n '0') ++ '.' :: ['0']) =
      some ⟨10 * (10 ^ n * d.significand), -1⟩ := by
  have whole : ∀ c ∈ d.digits ++ List.replicate n '0', c.isDigit :=
    List.forall_mem_append.mpr ⟨d.isDigit_digits, isDigit_zeros n⟩
  have significand : digitsToNat ((d.digits ++ List.replicate n '0') ++ ['0']) =
      10 * (10 ^ n * d.significand) := by
    rw [digitsToNat_append, digitsToNat_append, digitsToNat_zeros, d.digitsToNat_digits,
      List.length_replicate]
    rfl
  rw [ofNumeral?_fraction whole (by simp) (by simp [d.digits_ne_nil]), significand]
  rfl

theorem ofNumeral?_within (pos : 0 < n) (exponent : d.exponent = -(d.digits.drop n).length) :
    ofNumeral? (d.digits.take n ++ '.' :: d.digits.drop n) = some d := by
  have whole : ∀ c ∈ d.digits.take n, c.isDigit := fun c hc =>
    d.isDigit_digits c (List.mem_of_mem_take hc)
  have fraction : ∀ c ∈ d.digits.drop n, c.isDigit := fun c hc =>
    d.isDigit_digits c (List.mem_of_mem_drop hc)
  have some : d.digits.take n ≠ [] := by simp [d.digits_ne_nil, Nat.ne_of_gt pos]
  rw [ofNumeral?_fraction whole fraction some, List.take_append_drop, d.digitsToNat_digits, ← exponent]

end Positional

/-- The three ways of writing a decimal out: below one, whole, and with a point among its digits. -/
theorem ofNumeral?_positional (d : Decimal) :
    ∃ d', ofNumeral? (d.positional true).toList = some d' ∧ d'.value = d.value := by
  have long := d.length_digits_pos
  have order : d.order = d.exponent + (d.digits.length - 1 : Nat) := rfl
  simp only [positional, if_true]
  split
  · next low =>
    refine ⟨d, ?_, rfl⟩
    rw [String.toList_ofList, List.append_assoc]
    exact ofNumeral?_below_one (by omega)
  split
  · next high =>
    obtain ⟨n, hn⟩ : ∃ n, d.order.toNat + 1 - d.digits.length = n := ⟨_, rfl⟩
    have exponent : d.exponent = n := by omega
    refine ⟨⟨10 * (10 ^ n * d.significand), -1⟩, ?_, ?_⟩
    · rw [String.toList_ofList, hn]
      exact ofNumeral?_whole_point n
    · rw [Decimal.value, Decimal.value, exponent, zpow_natCast]
      push_cast
      ring
  · next middle =>
    refine ⟨d, ?_, rfl⟩
    rw [String.toList_ofList, List.append_assoc]
    refine ofNumeral?_within (Nat.succ_pos _) ?_
    rw [List.length_drop]
    omega

/-- A written decimal reads back with the same value. -/
theorem ofNumeral?_write (d : Decimal) :
    ∃ d', ofNumeral? (d.write .value).toList = some d' ∧ d'.value = d.value := by
  unfold write
  split
  · exact d.ofNumeral?_positional
  · exact ⟨d, d.ofNumeral?_scientific, rfl⟩

/-- Nothing that starts with a sign reads as a decimal. -/
theorem ofNumeral?_minus (cs : List Char) : ofNumeral? ('-' :: cs) = none := by
  simp [ofNumeral?, spanDigits]

end Decimal

/-! ## Numbers -/

theorem toString_int_injective {m n : Int} (h : toString m = toString n) : m = n := by
  have read := readExponent?_toString m
  rw [h, readExponent?_toString] at read
  exact (Option.some.inj read).symm

namespace Binary

open Decimal

variable {p : Precision} {r r' : Nat} {h : r ≤ p.infinity} {h' : r' ≤ p.infinity}

/-- The decimal value of the number of a rank as it is written. -/
def writtenValue (p : Precision) (r : Nat) : ℚ := if r = 0 then 0 else (shortest p r).value

theorem writtenValue_inj (same : writtenValue p r = writtenValue p r') : r = r' := by
  unfold writtenValue at same
  split at same <;> split at same
  · omega
  · next h => exact absurd same.symm (shortest_value_ne_zero p (Nat.pos_of_ne_zero h))
  · next h _ => exact absurd same (shortest_value_ne_zero p (Nat.pos_of_ne_zero h))
  · next h h' => exact shortest_value_inj (Nat.pos_of_ne_zero h) (Nat.pos_of_ne_zero h') same

theorem toText_negative :
    (number true r h).toText.toList = '-' :: (number false r h).toText.toList := by
  simp only [toText, write]
  split
  · simp
  split <;> simp

theorem toText_infinity (infinite : r = p.infinity) : (number false r h).toText = "inf" := by
  have some : p.infinity ≠ 0 := by cases p <;> decide
  simp [toText, write, infinite, some]

/-- A number without a sign reads back as its value. -/
theorem ofNumeral?_toText (finite : r ≠ p.infinity) :
    ∃ d, ofNumeral? (number false r h).toText.toList = some d ∧ d.value = writtenValue p r := by
  simp only [toText, write, writtenValue, if_neg finite]
  split
  · exact ⟨⟨0, -1⟩, rfl, by simp [value]⟩
  · simpa using (shortest p r).ofNumeral?_write

theorem toText_ne_negative : (number false r h).toText ≠ (number true r' h').toText := by
  intro text
  have text := congrArg String.toList text
  rw [toText_negative] at text
  by_cases infinite : r = p.infinity
  · rw [toText_infinity infinite] at text
    exact absurd (List.cons.inj text).1 (by decide)
  · obtain ⟨d, read, _⟩ := ofNumeral?_toText (h := h) infinite
    rw [text, ofNumeral?_minus] at read
    cases read

theorem toText_inj_of_positive (text : (number false r h).toText = (number false r' h').toText) :
    r = r' := by
  have infinity : ofNumeral? "inf".toList = none := rfl
  by_cases hr : r = p.infinity <;> by_cases hr' : r' = p.infinity
  · rw [hr, hr']
  · obtain ⟨d, read, _⟩ := ofNumeral?_toText (h := h') hr'
    rw [← text, toText_infinity hr, infinity] at read
    cases read
  · obtain ⟨d, read, _⟩ := ofNumeral?_toText (h := h) hr
    rw [text, toText_infinity hr', infinity] at read
    cases read
  · obtain ⟨d, read, value⟩ := ofNumeral?_toText (h := h) hr
    obtain ⟨d', read', value'⟩ := ofNumeral?_toText (h := h') hr'
    rw [text, read'] at read
    rw [← Option.some.inj read, value'] at value
    exact (writtenValue_inj value).symm

/-- Numbers are written apart, zeros of different sign too. -/
theorem toText_inj {x y : Binary p} (hx : x.isNaN = false) (hy : y.isNaN = false)
    (text : x.toText = y.toText) : x = y := by
  match x, y with
  | number false r _, number false r' _ =>
    cases toText_inj_of_positive text
    rfl
  | number false _ _, number true _ _ => exact absurd text toText_ne_negative
  | number true _ _, number false _ _ => exact absurd text.symm toText_ne_negative
  | number true r _, number true r' _ =>
    have text := congrArg String.toList text
    rw [toText_negative, toText_negative] at text
    have text := String.toList_injective (List.cons.inj text).2
    cases toText_inj_of_positive text
    rfl

end Binary

theorem Numeric.toText_inj {q : Numeric} {x y : q.Carrier} (hx : isNaN x = false)
    (hy : isNaN y = false) (text : Numeric.toText x = Numeric.toText y) : x = y := by
  cases q with
  | integer k =>
    cases x
    cases y
    cases toString_int_injective text
    rfl
  | float p => exact Binary.toText_inj hx hy text

end PrivateRelease
