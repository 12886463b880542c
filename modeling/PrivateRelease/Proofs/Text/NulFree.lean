import PrivateRelease.Boundary.Ledger
import PrivateRelease.Proofs.Descriptor.Parsing
import PrivateRelease.Proofs.Number.Characters

/-!
# Texts without nul characters

A text crosses the boundary without its nul characters. Types that can be read back, numbers, domains
over such types, metrics and measures are written without any, so their texts cross as they are.
-/

namespace PrivateRelease

namespace Text

def NulFree (s : String) : Prop := '\x00' ∉ s.toList

instance (s : String) : Decidable (NulFree s) := inferInstanceAs (Decidable ('\x00' ∉ s.toList))

@[simp] theorem nulFree_append {s t : String} : NulFree (s ++ t) ↔ NulFree s ∧ NulFree t := by
  simp [NulFree]

theorem nulFree_ofList {cs : List Char} : NulFree (String.ofList cs) ↔ '\x00' ∉ cs := by
  simp [NulFree]

theorem removeNul_eq {s : String} (h : NulFree s) : Boundary.removeNul s = s := by
  have keep : s.toList.filter (· ≠ '\x00') = s.toList := by
    rw [List.filter_eq_self]
    intro c hc
    simpa using fun e : c = '\x00' => h (e ▸ hc)
  rw [Boundary.removeNul, keep, String.ofList_toList]

/-! ## Numbers -/

theorem nulFree_of_written {s : String} (h : Written s) : NulFree s := h.not_mem (by decide)

@[simp] theorem nulFree_natRepr (n : Nat) : NulFree n.repr := nulFree_of_written (written_natRepr n)

end Text

open Text

@[simp] theorem Binary.nulFree_inSentence {p : Precision} (x : Binary p) : NulFree x.inSentence :=
  nulFree_of_written (x.written_write _)

@[simp] theorem Numeric.nulFree_toText {q : Numeric} (x : q.Carrier) :
    NulFree (Numeric.toText x) :=
  nulFree_of_written (written_toText x)

@[simp] theorem Numeric.nulFree_name (q : Numeric) : NulFree q.name := by
  rcases q with k | p
  · cases k <;> decide
  · cases p <;> decide

/-! ## Types -/

namespace Descriptor

theorem not_mem_listChars {ds : List Descriptor} (h : ∀ d ∈ ds, '\x00' ∉ d.chars) :
    '\x00' ∉ listChars ds := by
  induction ds with
  | nil => simp [listChars]
  | cons d ds ih =>
    have first := h d List.mem_cons_self
    have rest := ih fun e he => h e (List.mem_cons_of_mem d he)
    cases ds with
    | nil => simpa [listChars] using first
    | cons e ds => simpa [listChars, first] using rest

theorem IsName.not_mem {name : String} (h : IsName name) : '\x00' ∉ name.toList := fun hc =>
  absurd (h.2.1 _ hc) (by decide)

theorem WellFormed.not_mem_chars {d : Descriptor} (h : d.WellFormed) : '\x00' ∉ d.chars := by
  induction h with
  | primitive p =>
    rw [chars]
    exact fun hc => absurd (Primitive.isNameChar_of_mem_name p _ hc) (by decide)
  | tuple h ih => simpa [chars] using not_mem_listChars ih
  | generic hn h ih =>
    rename_i args
    cases args with
    | nil => simpa [chars] using hn.not_mem
    | cons arg args => simpa [chars, hn.not_mem] using not_mem_listChars ih

theorem WellFormed.nulFree {d : Descriptor} (h : d.WellFormed) : NulFree d.toText :=
  nulFree_ofList.mpr h.not_mem_chars

theorem nulFree_argsText {ds : List Descriptor} (h : ∀ d ∈ ds, d.WellFormed) :
    NulFree (argsText ds) := by
  cases ds with
  | nil => decide
  | cons d ds =>
    rw [argsText_cons, nulFree_ofList]
    simpa using not_mem_listChars fun e he => (h e he).not_mem_chars

theorem wellFormed_numeric (q : Numeric) : (numeric q).WellFormed := .primitive _

theorem wellFormed_vector {d : Descriptor} (h : d.WellFormed) : (vector d).WellFormed :=
  .generic (by decide) (by simpa using h)

end Descriptor

theorem Metric.wellFormed (m : Metric) : m.descriptor.WellFormed := by
  cases m <;>
    exact .generic (by decide) (by simp [Descriptor.wellFormed_numeric])

theorem Measure.wellFormed (m : Measure) : m.descriptor.WellFormed := by
  cases m <;>
    exact .generic (by decide)
      (List.forall_mem_singleton.mpr (Descriptor.wellFormed_numeric _))

theorem Metric.wellFormed_distanceType (m : Metric) : m.distanceType.WellFormed :=
  Descriptor.wellFormed_numeric _

theorem Descriptor.wellFormed_pair {d : Descriptor} (h : d.WellFormed) : (pair d).WellFormed :=
  .tuple (by simpa using h)

theorem Measure.wellFormed_distanceType (m : Measure) : m.distanceType.WellFormed := by
  cases m with
  | maxDivergence p => exact Descriptor.wellFormed_numeric _
  | smoothedMaxDivergence p =>
    exact .generic (by decide)
      (List.forall_mem_singleton.mpr (Descriptor.wellFormed_numeric _))
  | fixedSmoothedMaxDivergence p =>
    exact Descriptor.wellFormed_pair (Descriptor.wellFormed_numeric _)

theorem Measure.wellFormed_boundType (m : Measure) : m.boundType.WellFormed := by
  cases m with
  | maxDivergence p => exact Descriptor.wellFormed_numeric _
  | smoothedMaxDivergence p => exact Descriptor.wellFormed_pair (Descriptor.wellFormed_numeric _)
  | fixedSmoothedMaxDivergence p =>
    exact Descriptor.wellFormed_pair (Descriptor.wellFormed_numeric _)

@[simp] theorem Metric.nulFree_toText (m : Metric) : NulFree m.toText := m.wellFormed.nulFree

@[simp] theorem Measure.nulFree_toText (m : Measure) : NulFree m.toText := m.wellFormed.nulFree

/-! ## Domains -/

namespace Domain

/-- All types in the domain can be read back. -/
inductive WellFormed : Domain → Prop
  | all {d : Descriptor} (h : d.WellFormed) : WellFormed (.all d)
  | interval {q : Numeric} {lower upper : q.Carrier} {h : Numeric.le lower upper} :
      WellFormed (.interval q lower upper h)
  | vector {inner : Domain} (h : WellFormed inner) : WellFormed (.vector inner)
  | sized {inner : Domain} {size : Nat} (h : WellFormed inner) : WellFormed (.sized inner size)
  | product {parts : List Domain} (h : ∀ d ∈ parts, WellFormed d) : WellFormed (.product parts)

namespace WellFormed

theorem carrier {d : Domain} (h : d.WellFormed) : d.carrier.WellFormed := by
  induction h with
  | all h => exact h
  | interval => exact Descriptor.wellFormed_numeric _
  | vector _ ih => exact Descriptor.wellFormed_vector ih
  | sized _ ih => exact ih
  | product _ ih =>
    rw [Domain.carrier, carriers_eq_map]
    exact .tuple (by simpa using ih)

theorem descriptor {d : Domain} (h : d.WellFormed) : d.descriptor.WellFormed := by
  induction h with
  | all h => exact .generic (by decide) (by simpa using h)
  | interval =>
    exact .generic (by decide)
      (List.forall_mem_singleton.mpr (Descriptor.wellFormed_numeric _))
  | vector _ ih => exact .generic (by decide) (by simpa using ih)
  | sized _ ih => exact .generic (by decide) (by simpa using ih)
  | product _ ih =>
    have map : ∀ ds, descriptors ds = ds.map Domain.descriptor := by
      intro ds
      induction ds with
      | nil => rfl
      | cons d ds ih => rw [descriptors, ih, List.map_cons]
    rw [Domain.descriptor, map]
    exact .generic (by decide) (by simpa using ih)

theorem nulFree_listText {ds : List Domain} (h : ∀ d ∈ ds, NulFree d.toText) :
    NulFree (listText ds) := by
  induction ds with
  | nil => decide
  | cons d ds ih =>
    have first := h d List.mem_cons_self
    have rest := ih fun e he => h e (List.mem_cons_of_mem d he)
    cases ds with
    | nil => exact first
    | cons e ds =>
      rw [listText, nulFree_append, nulFree_append]
      exact ⟨⟨first, by decide⟩, rest⟩

theorem nulFree {d : Domain} (h : d.WellFormed) : NulFree d.toText := by
  induction h with
  | all h =>
    show NulFree s!"AllDomain<{_}>"
    simp only [toString, nulFree_append, h.nulFree]
    decide
  | interval =>
    show NulFree s!"IntervalDomain<{_}>[{_}, {_}]"
    simp only [toString, nulFree_append, Numeric.nulFree_name, Numeric.nulFree_toText]
    decide
  | vector _ ih =>
    show NulFree s!"VectorDomain<{_}>"
    simp only [toString, nulFree_append, ih]
    decide
  | sized _ ih =>
    show NulFree s!"SizedDomain<{_}>[{_}]"
    simp only [toString, nulFree_append, ih, nulFree_natRepr]
    decide
  | product _ ih =>
    show NulFree s!"ProductDomain<{_}>"
    simp only [toString, nulFree_append, nulFree_listText ih]
    decide

end WellFormed

end Domain

/-! ## Errors -/

namespace Error

/-- The domains and types that the error names can be read back. -/
def WellFormed : Error → Prop
  | unreadable why => NulFree why.message
  | missing what => NulFree what.text
  | mismatch (.domains a b) => a.WellFormed ∧ b.WellFormed
  | mismatch (.composedDomain _ a b) => a.WellFormed ∧ b.WellFormed
  | mismatch (.typeArgument name a b) => NulFree name ∧ a.WellFormed ∧ b.WellFormed
  | badTransformation (.bounds p _ _) => p ≠ .string
  | badTransformation (.interval why) => NulFree why.text
  | badMeasurement (.unsizedInput d) => d.WellFormed
  | badInput (.notMember type d) => type.WellFormed ∧ d.WellFormed
  | badDistance (.notNumeric why) => NulFree why.text
  | badCast why => NulFree why.text
  | badArgument why => NulFree why.text
  | stated _ text => NulFree text
  | _ => True

theorem nulFree_message {e : Error} : NulFree e.message ↔ NulFree e.text := by
  have opening : ∀ k : Kind, NulFree k.opening := by
    intro k
    cases k <;> decide
  simp [message, opening]

theorem Mismatch.nulFree {m : Mismatch} (h : WellFormed (.mismatch m)) : NulFree m.text := by
  cases m with
  | domains a b =>
    unfold text
    simp only [toString, nulFree_append, h.1.nulFree, h.2.nulFree]
    decide
  | metrics a b =>
    unfold text
    simp only [toString, nulFree_append, Metric.nulFree_toText]
    decide
  | composedDomain i a b =>
    unfold text
    simp only [toString, nulFree_append, nulFree_natRepr, h.1.nulFree, h.2.nulFree]
    decide
  | composedMetric i a b =>
    unfold text
    simp only [toString, nulFree_append, nulFree_natRepr, Metric.nulFree_toText]
    decide
  | composedMeasure i a b =>
    unfold text
    simp only [toString, nulFree_append, nulFree_natRepr, Measure.nulFree_toText]
    decide
  | typeArgument name a b =>
    unfold text
    simp only [toString, nulFree_append, h.1, h.2.1.nulFree, h.2.2.nulFree]
    decide

theorem BadTransformation.nulFree {b : BadTransformation} (h : WellFormed (.badTransformation b)) :
    NulFree b.text := by
  cases b with
  | bounds p x y =>
    have written : ∀ z : p.Carrier, NulFree (Primitive.toText z) := by
      intro z
      cases p with
      | bool => cases z <;> decide
      | numeric q => exact Numeric.nulFree_toText z
      | string => exact absurd rfl h
    unfold text
    simp only [toString, nulFree_append, written]
    decide
  | interval why => exact nulFree_append.mpr ⟨by decide, h⟩
  | emptyDataset => decide
  | inputMetric m =>
    unfold text
    simp only [toString, nulFree_append, Metric.nulFree_toText]
    decide
  | outputMetric p m =>
    have float : NulFree (Descriptor.float p).toText := (Descriptor.wellFormed_numeric _).nulFree
    unfold text
    simp only [toString, nulFree_append, Metric.nulFree_toText, float]
    decide

theorem BadMeasurement.nulFree {b : BadMeasurement} (h : WellFormed (.badMeasurement b)) :
    NulFree b.text := by
  cases b with
  | unsizedInput d =>
    have d : NulFree d.toText := Domain.WellFormed.nulFree h
    unfold text
    simp only [toString, nulFree_append, d]
    decide
  | nothingComposed => decide
  | _ =>
    unfold text
    simp only [toString, nulFree_append, Binary.nulFree_inSentence, nulFree_natRepr,
      Measure.nulFree_toText, Metric.nulFree_toText]
    decide

theorem BadInput.nulFree {b : BadInput} (h : WellFormed (.badInput b)) : NulFree b.text := by
  cases b with
  | notMember type d =>
    unfold text
    simp only [toString, nulFree_append, h.1.nulFree, h.2.nulFree]
    decide
  | noiseScale x =>
    unfold text
    simp only [toString, nulFree_append, Binary.nulFree_inSentence]
    decide

theorem BadDistance.nulFree {b : BadDistance} (h : WellFormed (.badDistance b)) :
    NulFree b.text := by
  cases b with
  | notNumeric why => exact nulFree_append.mpr ⟨by decide, h⟩
  | _ =>
    unfold text
    simp only [toString, nulFree_append, Binary.nulFree_inSentence, Numeric.nulFree_toText,
      nulFree_natRepr]
    decide

theorem BadCast.nulFree_wanted {what : Wanted} {found : Descriptor}
    (hw : ∀ d, what = .type d → d.WellFormed) (hf : found.WellFormed) :
    NulFree (BadCast.wanted what found).text := by
  have wanted : NulFree what.text := by
    cases what with
    | type d => exact (hw d rfl).nulFree
    | _ => decide
  unfold text
  simp only [toString, nulFree_append, wanted, hf.nulFree]
  decide

/-- The message of an error crosses the boundary as it is. -/
theorem WellFormed.nulFree {e : Error} (h : e.WellFormed) : NulFree e.message := by
  rw [nulFree_message]
  cases e with
  | mismatch what => exact what.nulFree h
  | badTransformation why => exact why.nulFree h
  | badMeasurement why => exact why.nulFree h
  | badInput why => exact why.nulFree h
  | badDistance why => exact why.nulFree h
  | _ => exact h

end Error

end PrivateRelease
