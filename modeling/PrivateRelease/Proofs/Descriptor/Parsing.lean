import PrivateRelease.Proofs.Descriptor.Spacing

/-!
# Reading and printing descriptors

The reader accepts exactly the spacings of what the printer writes for well-formed descriptors.
Reading is sound by induction on the bound on calls, and complete by induction on the descriptor; the
bound is large enough because every third call takes a character.
-/

namespace PrivateRelease

open Descriptor

theorem Primitive.isNameChar_of_mem_name (p : Primitive) : ∀ c ∈ p.name.toList, isNameChar c := by
  refine List.all_eq_true.mp ?_
  rcases p with _ | (k | p) | _
  · decide
  · cases k <;> decide
  · cases p <;> decide
  · decide

theorem Primitive.name_toList_ne_nil (p : Primitive) : p.name.toList ≠ [] := by
  rcases p with _ | (k | p) | _
  · decide
  · cases k <;> decide
  · cases p <;> decide
  · decide

theorem Primitive.name_of_ofName? {s : String} {p : Primitive} (h : ofName? s = some p) :
    p.name = s := by
  simpa using List.find?_some h

namespace Descriptor

open Reader

theorem IsName.ofList {cs : List Char} (hn : ∀ c ∈ cs, isNameChar c) (h0 : cs ≠ [])
    (hp : Primitive.ofName? (String.ofList cs) = none) : IsName (String.ofList cs) := by
  refine ⟨fun h => h0 ?_, by simpa using hn, hp⟩
  have := congrArg String.toList h
  simpa using this

/-- Names are checked character by character, not for all characters that there are. -/
instance (s : String) : Decidable (IsName s) :=
  decidable_of_iff (s ≠ "" ∧ s.toList.all isNameChar = true ∧ Primitive.ofName? s = none)
    (by rw [IsName, List.all_eq_true])

theorem IsName.toList_ne_nil {s : String} (h : IsName s) : s.toList ≠ [] := fun h0 =>
  h.1 (by rw [← String.ofList_toList (s := s), h0])

theorem chars_generic_cons (name : String) (arg : Descriptor) (args : List Descriptor) :
    (generic name (arg :: args)).chars =
      name.toList ++ '<' :: (listChars (arg :: args) ++ ['>']) := by
  simp [chars]

theorem chars_tuple (items : List Descriptor) :
    (tuple items).chars = '(' :: (listChars items ++ [')']) := by
  simp [chars]

theorem listChars_cons_cons (d e : Descriptor) (ds : List Descriptor) (close : Char) :
    listChars (d :: e :: ds) ++ [close] = d.chars ++ ',' :: (listChars (e :: ds) ++ [close]) := by
  simp [listChars]

/-! ## What is read is a spacing -/

def Sound (n : Nat) : Prop := ∀ {s d rest}, descriptor n s = .ok (d, rest) →
  d.WellFormed ∧ Spaced false d.chars s rest

def SoundItems (n : Nat) : Prop := ∀ {close s ds rest}, IsMark close →
  items n close s = .ok (ds, rest) →
    (∀ d ∈ ds, d.WellFormed) ∧ ds ≠ [] ∧ Spaced false (listChars ds ++ [close]) s rest

def SoundList (n : Nat) : Prop := ∀ {close s ds rest}, IsMark close →
  list n close s = .ok (ds, rest) →
    (∀ d ∈ ds, d.WellFormed) ∧ Spaced false (listChars ds ++ [close]) s rest

theorem SoundList.descriptor {n : Nat} (hl : SoundList n) : Sound (n + 1) := by
  intro s d rest h
  unfold Reader.descriptor at h
  split at h
  · next r he =>
    split at h <;> cases h
    next items hi =>
    obtain ⟨hw, hs⟩ := hl isMark_close hi
    refine ⟨.tuple hw, ?_⟩
    rw [chars_tuple]
    exact (spaced_cons_iff isMark_open).mpr ⟨r, he, hs⟩
  · split at h
    · cases h
    · next word r hname =>
      obtain ⟨hn, h0, hs⟩ := spaced_of_name hname
      split at h
      · next p hp =>
        split at h <;> cases h
        rw [← Primitive.name_of_ofName? hp] at hs
        exact ⟨.primitive p, hs⟩
      · next hp =>
        have hword : IsName word := by
          have := IsName.ofList hn h0 (by rwa [String.ofList_toList])
          rwa [String.ofList_toList] at this
        split at h
        · cases h
          exact ⟨.generic hword (by simp), hs⟩
        · next m hm =>
          split at h <;> cases h
          next arg args hi =>
          obtain ⟨hw, hs'⟩ := hl isMark_greater hi
          refine ⟨.generic hword hw, ?_⟩
          rw [chars_generic_cons, spaced_append_cons_iff isMark_less]
          exact ⟨r, hs, (spaced_cons_iff isMark_less).mpr ⟨m, hm, hs'⟩⟩

theorem SoundItems.list {n : Nat} (hi : SoundItems n) : SoundList (n + 1) := by
  intro close s ds rest hc h
  unfold Reader.list at h
  split at h
  · next r he =>
    cases h
    exact ⟨by simp, (spaced_cons_iff hc).mpr ⟨_, he, .nil⟩⟩
  · obtain ⟨hw, _, hs⟩ := hi hc h
    exact ⟨hw, hs⟩

theorem Sound.items {n : Nat} (hd : Sound n) (hi : SoundItems n) : SoundItems (n + 1) := by
  intro close s ds rest hc h
  unfold Reader.items at h
  split at h
  · cases h
  · next item r hitem =>
    obtain ⟨hw, hs⟩ := hd hitem
    split at h
    · next r' hcomma =>
      split at h <;> cases h
      next more hmore =>
      obtain ⟨hws, h0, hs'⟩ := hi hc hmore
      obtain ⟨e, es, rfl⟩ := List.exists_cons_of_ne_nil h0
      refine ⟨List.forall_mem_cons.mpr ⟨hw, hws⟩, by simp, ?_⟩
      rw [listChars_cons_cons, spaced_append_cons_iff isMark_comma]
      exact ⟨r, hs, (spaced_cons_iff isMark_comma).mpr ⟨r', hcomma, hs'⟩⟩
    · split at h <;> cases h
      next he =>
      refine ⟨by simpa using hw, by simp, ?_⟩
      rw [listChars, spaced_append_cons_iff hc]
      exact ⟨r, hs, (spaced_cons_iff hc).mpr ⟨_, he, .nil⟩⟩

theorem sound (n : Nat) : Sound n ∧ SoundList n ∧ SoundItems n := by
  induction n with
  | zero =>
    refine ⟨?_, ?_, ?_⟩
    · intro s d rest h; cases h
    · intro close s ds rest _ h; cases h
    · intro close s ds rest _ h; cases h
  | succ n ih =>
    obtain ⟨hd, hl, hi⟩ := ih
    exact ⟨hl.descriptor, hi.list, hd.items hi⟩

/-! ## Spacings are read -/

/-- A descriptor ends before `rest`: no name and no argument list goes on. -/
def Ends (rest : List Char) : Prop :=
  eat '<' rest = none ∧ ∀ x r, rest = x :: r → isNameChar x = false

theorem Blank.ends {rest : List Char} (h : Blank rest) : Ends rest := by
  refine ⟨eat_blank h, ?_⟩
  rintro x r rfl
  exact isNameChar_of_isBlank (h x List.mem_cons_self)

theorem Ends.of_eat {c : Char} (hc : IsMark c) (h : c ≠ '<') {rest m : List Char}
    (he : eat c rest = some m) : Ends rest := by
  obtain ⟨w, hw, hr⟩ := (eat_eq_some_iff hc).mp he
  refine ⟨by rw [hr]; exact eat_eq_none hw hc.1 h, ?_⟩
  rintro x r rfl
  exact not_isNameChar_of_eat hc he

def Readable (d : Descriptor) : Prop := ∀ {n s rest}, Spaced false d.chars s rest → Ends rest →
  3 * s.length ≤ n → descriptor n s = .ok (d, rest)

theorem exists_chars_eq_cons {d : Descriptor} (h : d.WellFormed) :
    ∃ c t, d.chars = c :: t ∧ (isNameChar c ∨ c = '(') := by
  have hname {word : List Char} (hn : ∀ c ∈ word, isNameChar c) (h0 : word ≠ []) :
      ∃ c t, word = c :: t ∧ isNameChar c := by
    obtain ⟨c, t, rfl⟩ := List.exists_cons_of_ne_nil h0
    exact ⟨c, t, rfl, hn c List.mem_cons_self⟩
  cases h with
  | primitive p =>
    obtain ⟨c, t, e, hc⟩ := hname p.isNameChar_of_mem_name p.name_toList_ne_nil
    exact ⟨c, t, by rw [chars, e], .inl hc⟩
  | tuple => exact ⟨'(', _, chars_tuple _, .inr rfl⟩
  | @generic name args hn =>
    obtain ⟨c, t, e, hc⟩ := hname hn.2.1 hn.toList_ne_nil
    cases args with
    | nil => exact ⟨c, t, by rw [chars, e], .inl hc⟩
    | cons arg args => exact ⟨c, _, by rw [chars_generic_cons, e]; rfl, .inl hc⟩

theorem isBlank_of_isNameChar {c : Char} (h : isNameChar c) : Text.isBlank c = false := by
  by_contra hb
  rw [Bool.not_eq_false] at hb
  rw [isNameChar_of_isBlank hb] at h
  cases h

/-- Before a name there is no mark. -/
theorem eat_eq_none_of_word {c : Char} (hc : IsMark c) {w word rest : List Char} (hw : Blank w)
    (hn : ∀ x ∈ word, isNameChar x) (h0 : word ≠ []) : eat c (w ++ (word ++ rest)) = none := by
  obtain ⟨x, word, rfl⟩ := List.exists_cons_of_ne_nil h0
  have hx := hn x List.mem_cons_self
  refine eat_eq_none hw (isBlank_of_isNameChar hx) ?_
  rintro rfl
  rw [hc.2] at hx
  cases hx

theorem readable_primitive (p : Primitive) : Readable (primitive p) := by
  intro n s rest h he hn
  have hp := p.isNameChar_of_mem_name
  have h0 := p.name_toList_ne_nil
  obtain ⟨w, hw, rfl⟩ := (spaced_word_iff hp h0).mp h
  have hlen : 0 < p.name.toList.length := List.length_pos_iff.mpr h0
  rw [List.length_append, List.length_append] at hn
  obtain ⟨n, rfl⟩ : ∃ k, n = k + 1 := ⟨n - 1, by omega⟩
  simp only [descriptor, eat_eq_none_of_word isMark_open hw hp h0, name_eq_ok hw hp h0 he.2,
    String.ofList_toList, Primitive.ofName?_name, he.1]

theorem items_eq_ok {close : Char} (hc : IsMark close) (hl : close ≠ '<') (hcomma : close ≠ ',') :
    ∀ {ds : List Descriptor}, (∀ d ∈ ds, Readable d) → ds ≠ [] → ∀ {n s rest},
      Spaced false (listChars ds ++ [close]) s rest → 3 * s.length + 1 ≤ n →
        items n close s = .ok (ds, rest)
  | [], _, h0, _, _, _, _, _ => absurd rfl h0
  | [d], hd, _, n, s, rest, h, hn => by
    obtain ⟨n, rfl⟩ : ∃ k, n = k + 1 := ⟨n - 1, by omega⟩
    rw [listChars, spaced_append_cons_iff hc] at h
    obtain ⟨m, h1, h2⟩ := h
    obtain ⟨r, hr, h2⟩ := (spaced_cons_iff hc).mp h2
    cases h2
    have hm : eat ',' m = none := by
      obtain ⟨w, hw, rfl⟩ := (eat_eq_some_iff hc).mp hr
      exact eat_eq_none hw hc.1 hcomma
    have hitem : descriptor n s = .ok (d, m) :=
      hd d List.mem_cons_self h1 (.of_eat hc hl hr) (by omega)
    simp only [items, hitem, hm, hr]
  | d :: e :: ds, hd, _, n, s, rest, h, hn => by
    obtain ⟨n, rfl⟩ : ∃ k, n = k + 1 := ⟨n - 1, by omega⟩
    rw [listChars_cons_cons, spaced_append_cons_iff isMark_comma] at h
    obtain ⟨m, h1, h2⟩ := h
    obtain ⟨r, hr, h2⟩ := (spaced_cons_iff isMark_comma).mp h2
    have hm := h1.length_le
    have hlen := eat_length hr
    have hitem : descriptor n s = .ok (d, m) :=
      hd d List.mem_cons_self h1 (.of_eat isMark_comma (by decide) hr) (by omega)
    have hmore : items n close r = .ok (e :: ds, rest) :=
      items_eq_ok hc hl hcomma (fun x hx => hd x (List.mem_cons_of_mem d hx)) (by simp) h2
        (by omega)
    simp only [items, hitem, hr, hmore]

theorem list_eq_ok {close : Char} (hc : IsMark close) (ho : close ≠ '(') (hl : close ≠ '<')
    (hcomma : close ≠ ',') {ds : List Descriptor} (hw : ∀ d ∈ ds, d.WellFormed)
    (hd : ∀ d ∈ ds, Readable d) {n : Nat} {s rest : List Char}
    (h : Spaced false (listChars ds ++ [close]) s rest) (hn : 3 * s.length + 2 ≤ n) :
    list n close s = .ok (ds, rest) := by
  obtain ⟨n, rfl⟩ : ∃ k, n = k + 1 := ⟨n - 1, by omega⟩
  cases ds with
  | nil =>
    obtain ⟨r, hr, h⟩ := (spaced_cons_iff hc).mp h
    cases h
    simp only [list, hr]
  | cons d ds =>
    have hnone : eat close s = none := by
      obtain ⟨x, t, hx, hx'⟩ := exists_chars_eq_cons (hw d List.mem_cons_self)
      obtain ⟨u, hu⟩ : ∃ u, listChars (d :: ds) ++ [close] = x :: u := by
        cases ds with
        | nil => exact ⟨t ++ [close], by rw [listChars, hx]; rfl⟩
        | cons e ds => exact ⟨_, by rw [listChars_cons_cons, hx]; rfl⟩
      rw [hu] at h
      cases h with
      | cons hw' _ _ =>
        rcases hx' with hx' | rfl
        · refine eat_eq_none hw' (isBlank_of_isNameChar hx') ?_
          rintro rfl
          rw [hc.2] at hx'
          cases hx'
        · exact eat_eq_none hw' isMark_open.1 ho.symm
    have hitems : items n close s = .ok (d :: ds, rest) :=
      items_eq_ok hc hl hcomma hd (by simp) h (by omega)
    simp only [list, hnone, hitems]

theorem readable {d : Descriptor} (h : d.WellFormed) : Readable d := by
  induction h with
  | primitive p => exact readable_primitive p
  | @tuple items hw ih =>
    intro n s rest h _ hn
    rw [chars_tuple, spaced_cons_iff isMark_open] at h
    obtain ⟨m, hm, h⟩ := h
    have hlen := eat_length hm
    obtain ⟨n, rfl⟩ : ∃ k, n = k + 1 := ⟨n - 1, by omega⟩
    have hlist : list n ')' m = .ok (items, rest) :=
      list_eq_ok isMark_close (by decide) (by decide) (by decide) hw ih h (by omega)
    simp only [descriptor, hm, hlist]
  | @generic name args hname hw ih =>
    intro n s rest h he hn
    have h0 := hname.toList_ne_nil
    have hp := hname.2.2
    have hlen : 0 < name.toList.length := List.length_pos_iff.mpr h0
    cases args with
    | nil =>
      obtain ⟨w, hw, rfl⟩ := (spaced_word_iff hname.2.1 h0).mp h
      rw [List.length_append, List.length_append] at hn
      obtain ⟨n, rfl⟩ : ∃ k, n = k + 1 := ⟨n - 1, by omega⟩
      simp only [descriptor, eat_eq_none_of_word isMark_open hw hname.2.1 h0,
        name_eq_ok hw hname.2.1 h0 he.2, String.ofList_toList, hp, he.1]
    | cons arg args =>
      rw [chars_generic_cons, spaced_append_cons_iff isMark_less] at h
      obtain ⟨r, h1, h2⟩ := h
      obtain ⟨m, hm, h2⟩ := (spaced_cons_iff isMark_less).mp h2
      obtain ⟨w, hb, rfl⟩ := (spaced_word_iff hname.2.1 h0).mp h1
      have hr : ∀ x t, r = x :: t → isNameChar x = false := by
        rintro x t rfl
        exact not_isNameChar_of_eat isMark_less hm
      have hlen' := eat_length hm
      rw [List.length_append, List.length_append] at hn
      obtain ⟨n, rfl⟩ : ∃ k, n = k + 1 := ⟨n - 1, by omega⟩
      have hlist : list n '>' m = .ok (arg :: args, rest) :=
        list_eq_ok isMark_greater (by decide) (by decide) (by decide) hw ih h2 (by omega)
      simp only [descriptor, eat_eq_none_of_word isMark_open hb hname.2.1 h0,
        name_eq_ok hb hname.2.1 h0 hr, String.ofList_toList, hp, hm, hlist]

/-! ## Whole texts -/

theorem located_eq_ok_iff {α : Type} {text : String} {r : Except (Fault × List Char) α} {a : α} :
    located text r = .ok a ↔ r = .ok a := by
  cases r <;> simp [located]

theorem finish_eq_ok_iff {α : Type} {r : Step α} {a : α} :
    finish r = .ok a ↔ ∃ rest, r = .ok (a, rest) ∧ Blank rest := by
  rcases r with e | ⟨b, rest⟩
  · simp [finish]
  · simp only [finish, Except.ok.injEq, Prod.mk.injEq, and_assoc, exists_and_left,
      exists_eq_left', ← skipBlank_eq_nil_iff]
    split
    · next h => simp [h]
    · next h => simp [h]

theorem parse_eq_ok_iff {s : String} {d : Descriptor} :
    parse s = .ok d ↔ d.WellFormed ∧ IsSpacing d.toText s := by
  simp only [parse, located_eq_ok_iff, finish_eq_ok_iff, IsSpacing, toText, String.toList_ofList]
  constructor
  · rintro ⟨rest, h, hb⟩
    obtain ⟨hw, hs⟩ := (sound _).1 h
    exact ⟨hw, rest, hb, hs⟩
  · rintro ⟨hw, rest, hb, hs⟩
    exact ⟨rest, readable hw hs hb.ends (by simp [enough]), hb⟩

theorem list_eq_ok_iff {s rest : List Char} {ds : List Descriptor} :
    list (enough s) '>' s = .ok (ds, rest) ↔
      (∀ d ∈ ds, d.WellFormed) ∧ Spaced false (listChars ds ++ ['>']) s rest := by
  constructor
  · exact (sound _).2.1 isMark_greater
  · rintro ⟨hw, h⟩
    exact list_eq_ok isMark_greater (by decide) (by decide) (by decide) hw
      (fun d hd => readable (hw d hd)) h (by simp [enough])

theorem args_eq_ok_iff {s rest : List Char} {ds : List Descriptor} :
    args s = .ok (ds, rest) ↔ (Blank s ∧ ds = [] ∧ rest = []) ∨
      (∀ d ∈ ds, d.WellFormed) ∧ Spaced false ('<' :: (listChars ds ++ ['>'])) s rest := by
  rw [spaced_cons_iff isMark_less]
  unfold args eat
  cases hs : skipBlank s with
  | nil => simp [skipBlank_eq_nil_iff.mp hs, eq_comm]
  | cons c r =>
    have hb : ¬ Blank s := by rw [← skipBlank_eq_nil_iff, hs]; simp
    by_cases hc : c = '<'
    · simp [hc, hb, list_eq_ok_iff]
    · simp [hc, hb]

theorem parseArgs_eq_ok_iff {s : String} {ds : List Descriptor} :
    parseArgs s = .ok ds ↔ (Blank s.toList ∧ ds = []) ∨
      (∀ d ∈ ds, d.WellFormed) ∧ IsSpacing (String.ofList ('<' :: (listChars ds ++ ['>']))) s := by
  simp only [parseArgs, located_eq_ok_iff, finish_eq_ok_iff, args_eq_ok_iff, IsSpacing,
    String.toList_ofList]
  constructor
  · rintro ⟨rest, ⟨hb, rfl, rfl⟩ | ⟨hw, hs⟩, hr⟩
    · exact .inl ⟨hb, rfl⟩
    · exact .inr ⟨hw, rest, hr, hs⟩
  · rintro (⟨hb, rfl⟩ | ⟨hw, rest, hr, hs⟩)
    · exact ⟨[], .inl ⟨hb, rfl, rfl⟩, .nil⟩
    · exact ⟨rest, .inr ⟨hw, hs⟩, hr⟩

theorem isSpacing_self (text : String) : IsSpacing text text := by
  refine ⟨[], .nil, ?_⟩
  have := spaced_self (b := false) text.toList []
  rwa [List.append_nil] at this

theorem isSpacing_empty_iff {s : String} : IsSpacing "" s ↔ Blank s.toList := by
  constructor
  · rintro ⟨w, hw, h⟩
    have h : Spaced false [] s.toList w := h
    cases h
    exact hw
  · exact fun h => ⟨s.toList, h, .nil⟩

theorem argsText_cons (d : Descriptor) (ds : List Descriptor) :
    argsText (d :: ds) = String.ofList ('<' :: (listChars (d :: ds) ++ ['>'])) := rfl

/-- A printed descriptor reads as itself. -/
theorem parse_toText {d : Descriptor} (h : d.WellFormed) : parse d.toText = .ok d :=
  parse_eq_ok_iff.mpr ⟨h, isSpacing_self _⟩

/-- A printed list of type arguments reads as itself. -/
theorem parseArgs_argsText {ds : List Descriptor} (h : ∀ d ∈ ds, d.WellFormed) :
    parseArgs (argsText ds) = .ok ds := by
  rw [parseArgs_eq_ok_iff]
  cases ds with
  | nil => exact .inl ⟨.nil, rfl⟩
  | cons d ds => exact .inr ⟨h, isSpacing_self _⟩

theorem toText_injective {d e : Descriptor} (hd : d.WellFormed) (he : e.WellFormed)
    (h : d.toText = e.toText) : d = e := by
  have := parse_toText hd
  rw [h, parse_toText he] at this
  exact (Except.ok.inj this).symm

/-- A text is read as a descriptor if and only if it is a spacing of what that descriptor prints, and
as a list of type arguments if and only if it is one of what that list prints, where `<>` also stands
for no arguments. -/
theorem reads_exactly_spacings :
    (∀ s d, parse s = .ok d ↔ d.WellFormed ∧ IsSpacing d.toText s) ∧
    (∀ s ds, parseArgs s = .ok ds ↔
      (∀ d ∈ ds, d.WellFormed) ∧ IsSpacing (argsText ds) s ∨
        ds = [] ∧ (Blank s.toList ∨ IsSpacing "<>" s)) ∧
    (∀ d, d.WellFormed → parse d.toText = .ok d) ∧
    ∀ ds, (∀ d ∈ ds, d.WellFormed) → parseArgs (argsText ds) = .ok ds := by
  refine ⟨fun s d => parse_eq_ok_iff, fun s ds => ?_, fun d => parse_toText,
    fun ds => parseArgs_argsText⟩
  rw [parseArgs_eq_ok_iff]
  cases ds with
  | nil =>
    have hempty : argsText [] = "" := rfl
    have hangle : String.ofList ('<' :: (listChars [] ++ ['>'])) = "<>" := rfl
    simp [hempty, hangle, isSpacing_empty_iff]
  | cons d ds => simp [argsText_cons]

end Descriptor

end PrivateRelease
