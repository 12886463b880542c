import Mathlib.Data.List.Nodup
import PrivateRelease.Proofs.Boundary.Symbols
import PrivateRelease.Proofs.Text.NulFree

/-!
# Instances

A symbol that is made for types that can be read back names an entry point exactly when the table has
one for these types. Types may well contain a separator; but those in the table do not, so no other
types of the same number make the same symbol.
-/

namespace PrivateRelease

namespace Descriptor

/-- A word of some characters, of which the first could not belong to a separator. -/
def Separate (cs : List Char) : Prop := isWord cs = true ∧ cs ≠ [] ∧ cs.head? ≠ some '_'

instance (cs : List Char) : Decidable (Separate cs) := by
  unfold Separate
  infer_instance

theorem isWord_separator (cs : List Char) : isWord ('_' :: '_' :: cs) = false := rfl

theorem tailChars_cons (d : Descriptor) (ds : List Descriptor) :
    tailChars (d :: ds) = '_' :: '_' :: (d.chars ++ tailChars ds) := by
  simp [tailChars]

/-- Words with separators between them can be told apart, even from texts with separators in them if
those are as many. -/
theorem append_tailChars_inj {us ts : List Descriptor} {x y : List Char} (hx : isWord x = true)
    (hu : ∀ u ∈ us, Separate u.chars) (hl : us.length ≤ ts.length)
    (h : x ++ tailChars us = y ++ tailChars ts) : x = y ∧ us.map chars = ts.map chars := by
  induction us generalizing x y ts with
  | nil =>
    cases ts with
    | nil => simpa [tailChars] using h
    | cons t ts =>
      rw [tailChars_cons, tailChars, List.flatMap_nil, List.append_nil] at h
      rw [h] at hx
      cases (isWord_separator _).symm.trans (isWord_append_right hx)
  | cons u us ih =>
    cases ts with
    | nil => simp at hl
    | cons t ts =>
      have hword := hu u List.mem_cons_self
      have hrest := fun v hv => hu v (List.mem_cons_of_mem u hv)
      rw [tailChars_cons, tailChars_cons] at h
      rcases List.append_eq_append_iff.mp h with ⟨c, rfl, hc⟩ | ⟨c, rfl, hc⟩
      · -- The second text goes on after the first word.
        rcases c with _ | ⟨a, _ | ⟨b, c⟩⟩
        · simp only [List.nil_append, List.cons.injEq, true_and] at hc
          obtain ⟨hut, hts⟩ := ih hword.1 hrest (by simpa using hl) hc
          exact ⟨by simp, by simp [hut, hts]⟩
        · simp only [List.cons_append, List.nil_append, List.cons.injEq, true_and] at hc
          obtain ⟨-, hc⟩ := hc
          cases hc' : u.chars with
          | nil => exact absurd hc' hword.2.1
          | cons d cs =>
            simp only [hc', List.cons_append, List.cons.injEq] at hc
            exact absurd (by simp [hc', hc.1]) hword.2.2
        · simp only [List.cons_append, List.cons.injEq] at hc
          obtain ⟨-, -, hc⟩ := hc
          rw [← tailChars_cons] at hc
          obtain ⟨-, hts⟩ := ih hword.1 hrest (by simp at hl ⊢; omega) hc
          have := congrArg List.length hts
          simp at this hl
          omega
      · have := IsTail.eq_nil_of_isWord (.inr ⟨_, hc.symm⟩) (isWord_append_right hx)
        subst this
        simp only [List.nil_append, List.cons.injEq, true_and] at hc
        obtain ⟨hut, hts⟩ := ih hword.1 hrest (by simpa using hl) hc.symm
        exact ⟨by simp, by simp [hut, hts]⟩

theorem map_chars_inj {us ts : List Descriptor} (hu : ∀ u ∈ us, u.WellFormed)
    (ht : ∀ t ∈ ts, t.WellFormed) (h : us.map chars = ts.map chars) : us = ts := by
  induction us generalizing ts with
  | nil =>
    cases ts with
    | nil => rfl
    | cons t ts => simp at h
  | cons u us ih =>
    cases ts with
    | nil => simp at h
    | cons t ts =>
      simp only [List.map_cons, List.cons.injEq] at h
      have first := toText_injective (hu u List.mem_cons_self) (ht t List.mem_cons_self)
        (congrArg String.ofList h.1)
      rw [first, ih (fun v hv => hu v (List.mem_cons_of_mem u hv))
        (fun v hv => ht v (List.mem_cons_of_mem t hv)) h.2]

end Descriptor

namespace Boundary.Export

open Descriptor

theorem separate_types : ∀ e ∈ all, ∀ d ∈ e.types, Separate d.chars := by
  decide +kernel

theorem wellFormed_types : ∀ e ∈ all, ∀ d ∈ e.types, d.WellFormed := by
  have interval : ∀ p, (generic "IntervalDomain" [.float p]).WellFormed := fun p =>
    .generic (by decide) (List.forall_mem_singleton.mpr (.primitive _))
  refine forall_mem_all (fun e h => ?_) ?_ fun p => ?_
  · simp [types_of_mem_plain e h]
  · simp only [kernels, List.forall_mem_append, List.forall_mem_map]
    simp [float, integer, numeric, WellFormed.primitive]
  · simp only [combinations, List.forall_mem_append, List.forall_mem_map]
    simp [Metric.wellFormed, Measure.wellFormed, interval]

/-- No two rows are for the same types of one operation. -/
theorem nodup_rows : (all.map fun e => (e.types, e.operation, e.module)).Nodup := by
  decide +kernel

/-- The symbol of an export has no other reading as types of its operation, of which there are no
fewer. -/
theorem types_eq_of_symbol {e : Export} (he : e ∈ all) {types : List Descriptor}
    (hw : ∀ d ∈ types, d.WellFormed) (hl : e.types.length ≤ types.length)
    (h : e.symbol = Descriptor.symbol e.module e.operation types) : e.types = types := by
  obtain ⟨-, -, ht⟩ := symbol_inj (isWord_module he) (isWord_module he) (isWord_operation he)
    (isWord_operation he) h
  obtain ⟨-, hc⟩ := append_tailChars_inj (show isWord [] = true from rfl) (separate_types e he) hl
    (show [] ++ tailChars e.types = [] ++ tailChars types from ht)
  exact map_chars_inj (wellFormed_types e he) hw hc

/-- No two rows have the same symbol. -/
theorem eq_of_symbol {e e' : Export} (he : e ∈ all) (he' : e' ∈ all) (h : e.symbol = e'.symbol) :
    e = e' := by
  obtain ⟨hm, ho, -⟩ := symbol_inj (isWord_module he) (isWord_module he') (isWord_operation he)
    (isWord_operation he') h
  have same : e.symbol = Descriptor.symbol e.module e.operation e'.types := by rw [h, symbol, hm, ho]
  have types := types_eq_of_symbol he (wellFormed_types e' he') (length_types he he' hm ho).le same
  exact List.inj_on_of_nodup_map nodup_rows he he' (by rw [types, ho, hm])

theorem lookup_symbol {e : Export} (he : e ∈ all) : lookup e.symbol = some e.entry := by
  have some : (all.find? fun r => r.symbol == e.symbol).isSome :=
    List.find?_isSome.mpr ⟨e, he, beq_self_eq_true e.symbol⟩
  obtain ⟨e', found⟩ := Option.isSome_iff_exists.mp some
  have same : e'.symbol = e.symbol := by simpa using List.find?_some found
  obtain rfl := eq_of_symbol (List.mem_of_find?_eq_some found) he same
  rw [lookup, found]
  rfl

/-- For as many types as the operation has, a symbol names what the table has for them. -/
theorem lookup_eq_some_iff {e : Export} (he : e ∈ all) {types : List Descriptor}
    (hw : ∀ d ∈ types, d.WellFormed) (hl : types.length = e.types.length) {entry : Entry} :
    lookup (Descriptor.symbol e.module e.operation types) = some entry ↔
      ⟨e.module, e.operation, types, entry⟩ ∈ all := by
  refine ⟨fun h => ?_, fun h => lookup_symbol h⟩
  obtain ⟨e', he', hs, rfl⟩ := exists_of_lookup h
  obtain ⟨hm, ho, -⟩ := symbol_inj (isWord_module he') (isWord_module he) (isWord_operation he')
    (isWord_operation he) hs
  have length := length_types he' he hm ho
  rw [← hm, ← ho] at hs ⊢
  rw [← types_eq_of_symbol he' hw (by omega) hs]
  exact he'

theorem lookup_plain (e : Export) (h : e ∈ plain) : lookup e.symbol = some e.entry :=
  lookup_symbol (by simp [all, h])

/-! ## The entries that the host calls on its own account -/

theorem lookup_sliceAsObject : lookup "data__slice_as_object" = some .sliceAsObject :=
  lookup_plain ⟨"data", "slice_as_object", [], .sliceAsObject⟩ (by simp [plain])

theorem lookup_objectType : lookup "data__object_type" = some .objectType :=
  lookup_plain ⟨"data", "object_type", [], .objectType⟩ (by simp [plain])

theorem lookup_objectAsSlice : lookup "data__object_as_slice" = some .objectAsSlice :=
  lookup_plain ⟨"data", "object_as_slice", [], .objectAsSlice⟩ (by simp [plain])

theorem lookup_sliceFree : lookup "data__slice_free" = some .sliceFree :=
  lookup_plain ⟨"data", "slice_free", [], .sliceFree⟩ (by simp [plain])

theorem lookup_objectFree : lookup "data__object_free" = some .objectFree :=
  lookup_plain ⟨"data", "object_free", [], .objectFree⟩ (by simp [plain])

theorem lookup_textFree : lookup "data__str_free" = some .textFree :=
  lookup_plain ⟨"data", "str_free", [], .textFree⟩ (by simp [plain])

theorem lookup_transformationFree : lookup "core__transformation_free" = some .transformationFree :=
  lookup_plain ⟨"core", "transformation_free", [], .transformationFree⟩ (by simp [plain])

theorem lookup_measurementFree : lookup "core__measurement_free" = some .measurementFree :=
  lookup_plain ⟨"core", "measurement_free", [], .measurementFree⟩ (by simp [plain])

end Boundary.Export

end PrivateRelease
