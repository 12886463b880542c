import PrivateRelease.Boundary.Export
import PrivateRelease.Proofs.Descriptor.Parsing

/-!
# Symbols

A symbol joins a module, an operation and types with a separator of two underscores. Modules,
operations and the types in the table of exports contain no separator, so a symbol that is in the
table has a single reading.
-/

namespace PrivateRelease

namespace Descriptor

/-- Whether no separator is in the word, nor would be where a separator follows or precedes it. -/
def isWord : List Char → Bool
  | [] => true
  | ['_'] => false
  | '_' :: '_' :: _ => false
  | _ :: cs => isWord cs

/-- A separator and what comes after it, or nothing. -/
def IsTail (cs : List Char) : Prop := cs = [] ∨ ∃ rest, cs = '_' :: '_' :: rest

theorem isWord_cons {c : Char} {cs : List Char} (h : isWord (c :: cs) = true) :
    isWord cs = true := by
  unfold isWord at h
  split at h
  · next he => cases he
  · cases h
  · cases h
  · next he =>
    cases he
    exact h

theorem isWord_append_right {a b : List Char} (h : isWord (a ++ b) = true) : isWord b = true := by
  induction a with
  | nil => exact h
  | cons c a ih => exact ih (isWord_cons h)

/-- No word ends within a separator that follows a shorter one. -/
theorem IsTail.eq_nil_of_isWord {c y : List Char} (hc : IsTail (c ++ y))
    (hw : isWord c = true) : c = [] := by
  rcases hc with hc | ⟨rest, hc⟩
  · exact (List.append_eq_nil_iff.mp hc).1
  · rcases c with _ | ⟨a, _ | ⟨b, c⟩⟩
    · rfl
    · simp only [List.cons_append, List.nil_append, List.cons.injEq] at hc
      simp [hc.1, isWord] at hw
    · simp only [List.cons_append, List.cons.injEq] at hc
      simp [hc.1, hc.2.1, isWord] at hw

theorem append_tail_inj {u v x y : List Char} (hu : isWord u = true) (hv : isWord v = true)
    (hx : IsTail x) (hy : IsTail y) (h : u ++ x = v ++ y) : u = v ∧ x = y := by
  rcases List.append_eq_append_iff.mp h with ⟨c, rfl, rfl⟩ | ⟨c, rfl, rfl⟩
  · have := IsTail.eq_nil_of_isWord hx (isWord_append_right hv)
    simp [this]
  · have := IsTail.eq_nil_of_isWord hy (isWord_append_right hu)
    simp [this]

/-- The types of a symbol, each after a separator. -/
def tailChars (types : List Descriptor) : List Char := types.flatMap fun d => '_' :: '_' :: d.chars

theorem isTail_tailChars (types : List Descriptor) : IsTail (tailChars types) := by
  cases types with
  | nil => exact .inl rfl
  | cons d types => exact .inr ⟨d.chars ++ tailChars types, by simp [tailChars]⟩

theorem symbol_toList (module operation : String) (types : List Descriptor) :
    (symbol module operation types).toList =
      module.toList ++ '_' :: '_' :: (operation.toList ++ tailChars types) := by
  have go : ∀ (types : List Descriptor) (s : String),
      (types.foldl (fun s d => s ++ symbolSeparator ++ d.toText) s).toList =
        s.toList ++ tailChars types := by
    intro types
    induction types with
    | nil => simp [tailChars]
    | cons d types ih =>
      intro s
      rw [List.foldl_cons, ih]
      simp [tailChars, symbolSeparator, toText]
  rw [symbol, go]
  simp [symbolSeparator]

theorem symbol_inj {m m' o o' : String} {types types' : List Descriptor}
    (hm : isWord m.toList = true) (hm' : isWord m'.toList = true) (ho : isWord o.toList = true)
    (ho' : isWord o'.toList = true) (h : symbol m o types = symbol m' o' types') :
    m = m' ∧ o = o' ∧ tailChars types = tailChars types' := by
  have h := congrArg String.toList h
  rw [symbol_toList, symbol_toList] at h
  obtain ⟨hm, h⟩ := append_tail_inj hm hm' (.inr ⟨_, rfl⟩) (.inr ⟨_, rfl⟩) h
  simp only [List.cons.injEq, true_and] at h
  obtain ⟨ho, h⟩ := append_tail_inj ho ho' (isTail_tailChars types) (isTail_tailChars types') h
  exact ⟨String.toList_inj.mp hm, String.toList_inj.mp ho, h⟩

end Descriptor

namespace Boundary.Export

open Descriptor

/-- The module and the operation of every export, with the number of its types. -/
def operations : List (String × String × Nat) :=
  plain.map (fun e => (e.module, e.operation, 0)) ++
    [("trans", "make_identity", 1), ("trans", "make_clamp", 1), ("trans", "make_bounded_sum", 1),
      ("trans", "make_count", 1), ("meas", "make_base_laplace", 1),
      ("meas", "make_base_gaussian", 1), ("meas", "make_base_geometric", 1),
      ("trans", "make_bounded_mean", 2), ("comb", "make_population_amplification", 2),
      ("comb", "make_fix_delta", 1)]

theorem types_of_mem_plain : ∀ e ∈ plain, e.types = [] := by
  simp [plain]

theorem forall_mem_all {P : Export → Prop} (hp : ∀ e ∈ plain, P e) (hk : ∀ e ∈ kernels, P e)
    (hc : ∀ p, ∀ e ∈ combinations p, P e) : ∀ e ∈ all, P e := by
  simp only [all, List.forall_mem_append, List.forall_mem_flatMap]
  exact ⟨⟨hp, hk⟩, fun p _ => hc p⟩

theorem mem_operations : ∀ e ∈ all, (e.module, e.operation, e.types.length) ∈ operations := by
  refine forall_mem_all (fun e h => ?_) ?_ fun p => ?_
  · exact List.mem_append_left _ (List.mem_map.mpr ⟨e, h, by rw [types_of_mem_plain e h]; rfl⟩)
  · simp only [kernels, List.forall_mem_append, List.forall_mem_map]
    simp [operations]
  · simp only [combinations, List.forall_mem_append, List.forall_mem_map]
    simp [operations]

theorem isWord_operations : ∀ o ∈ operations,
    isWord o.1.toList = true ∧ isWord o.2.1.toList = true := by
  decide +kernel

theorem isWord_module {e : Export} (h : e ∈ all) : isWord e.module.toList = true :=
  (isWord_operations _ (mem_operations e h)).1

theorem isWord_operation {e : Export} (h : e ∈ all) : isWord e.operation.toList = true :=
  (isWord_operations _ (mem_operations e h)).2

theorem length_types {e e' : Export} (he : e ∈ all) (he' : e' ∈ all) (hm : e.module = e'.module)
    (ho : e.operation = e'.operation) : e.types.length = e'.types.length := by
  have lengths : ∀ a ∈ operations, ∀ b ∈ operations, a.2.1 = b.2.1 → a.1 = b.1 → a.2.2 = b.2.2 := by
    decide +kernel
  exact lengths _ (mem_operations e he) _ (mem_operations e' he') ho hm

theorem exists_of_lookup {symbol : String} {entry : Entry} (h : lookup symbol = some entry) :
    ∃ e ∈ all, e.symbol = symbol ∧ e.entry = entry := by
  obtain ⟨e, he, rfl⟩ := Option.map_eq_some_iff.mp h
  exact ⟨e, List.mem_of_find?_eq_some he, by simpa using List.find?_some he, rfl⟩

end Boundary.Export

end PrivateRelease
