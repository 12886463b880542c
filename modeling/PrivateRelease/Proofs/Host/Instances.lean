import PrivateRelease.Proofs.Boundary.Instances
import PrivateRelease.Proofs.Host.Programs

/-!
# Exported instances

Which entry point an operation with type parameters has for given types, as a reading of the types.
-/

namespace PrivateRelease

namespace Descriptor

theorem primitive?_eq_some_iff {d : Descriptor} {p : Primitive} :
    d.primitive? = some p ↔ d = .primitive p := by
  cases d <;> simp [primitive?]

theorem numeric?_eq_some_iff {d : Descriptor} {q : Numeric} :
    d.numeric? = some q ↔ d = .numeric q := by
  unfold numeric? numeric
  split <;> simp_all

theorem float?_eq_some_iff {d : Descriptor} {p : Precision} :
    d.float? = some p ↔ d = .float p := by
  unfold float? float numeric
  split <;> simp_all

theorem integer?_eq_some_iff {d : Descriptor} {k : IntegerType} :
    d.integer? = some k ↔ d = .integer k := by
  unfold integer? integer numeric
  split <;> simp_all

theorem interval?_eq_some_iff {d : Descriptor} {p : Precision} :
    d.interval? = some p ↔ d = .generic "IntervalDomain" [.float p] := by
  unfold interval?
  split
  · simp [float?_eq_some_iff]
  · next h => simpa using fun hd => h _ hd

end Descriptor

theorem Numeric.mem_all (q : Numeric) : q ∈ Numeric.all := by
  rcases q with k | p
  · cases k <;> decide
  · cases p <;> decide

theorem Primitive.mem_all (p : Primitive) : p ∈ Primitive.all := by
  cases p with
  | numeric q => simp [Primitive.all, Numeric.mem_all q]
  | _ => decide

namespace Metric

theorem ofDescriptor?_eq_some_iff {d : Descriptor} {m : Metric} :
    ofDescriptor? d = some m ↔ d = m.descriptor := by
  refine ⟨fun h => ?_, fun h => h ▸ ofDescriptor?_descriptor m⟩
  unfold ofDescriptor? at h
  split at h <;> cases h <;> rfl

theorem ofMean?_eq_some_iff {i o : Descriptor} {p : Precision} {input output : Metric} :
    ofMean? i o = some (p, input, output) ↔ i = input.descriptor ∧ o = output.descriptor ∧
      input.isDataset = true ∧
        (output = .l1Sensitivity (.float p) ∨ output = .l2Sensitivity (.float p)) := by
  constructor
  · intro h
    unfold ofMean? at h
    split at h
    · next hi ho =>
      rw [ofDescriptor?_eq_some_iff] at hi ho
      split at h <;> cases h
      exact ⟨hi, ho, ‹_›, .inl rfl⟩
    · next hi ho =>
      rw [ofDescriptor?_eq_some_iff] at hi ho
      split at h <;> cases h
      exact ⟨hi, ho, ‹_›, .inr rfl⟩
    · cases h
  · rintro ⟨rfl, rfl, hi, rfl | rfl⟩
    · simp [ofMean?, ofDescriptor?_descriptor, hi]
    · simp [ofMean?, ofDescriptor?_descriptor, hi]

end Metric

namespace Boundary.Export

theorem mem_precisions (p : Precision) : p ∈ precisions := by
  cases p <;> decide

theorem mem_meanMetrics {p : Precision} {input output : Metric} :
    (input, output) ∈ meanMetrics p ↔ input.isDataset = true ∧
      (output = .l1Sensitivity (.float p) ∨ output = .l2Sensitivity (.float p)) := by
  cases input <;> simp [meanMetrics, Metric.isDataset]

theorem mem_integers (k : IntegerType) : k ∈ integers := by
  cases k <;> decide

end Boundary.Export

namespace Host

open Boundary

variable {t : Descriptor}

/-- What the table has for the types `ds`, when an operation has a row for each choice in `cs` and
these types are read as the choice `x`. -/
theorem lookup_rows (s : Signature) {κ : Type} (cs : List κ) (types : κ → List Descriptor)
    {entry : κ → Entry} (hs : s.instantiated = true)
    (rows : Export.all.filter (fun e => e.module = s.module ∧ e.operation = s.name) =
      cs.map fun c => ⟨s.module, s.name, types c, entry c⟩)
    (hc : cs ≠ []) {ds : List Descriptor} (hw : ∀ d ∈ ds, d.WellFormed)
    (hl : ∀ c, (types c).length = ds.length) {x : Option κ}
    (read : ∀ c, x = some c ↔ c ∈ cs ∧ ds = types c) :
    Export.lookup (s.symbol ds) = x.map entry := by
  have table : ∀ ts e, ⟨s.module, s.name, ts, e⟩ ∈ Export.all ↔
      ∃ c ∈ cs, types c = ts ∧ entry c = e := fun ts e => by
    have row := congrArg (⟨s.module, s.name, ts, e⟩ ∈ ·) rows
    simpa using row
  obtain ⟨c, hc⟩ := List.exists_mem_of_ne_nil cs hc
  have row := (table _ _).mpr ⟨c, hc, rfl, rfl⟩
  refine Option.ext fun e => ?_
  rw [Signature.symbol, if_pos hs, Option.map_eq_some_iff]
  refine (Export.lookup_eq_some_iff row hw (hl c).symm).trans ((table ds e).trans ?_)
  simp only [read, and_assoc, @eq_comm _ ds]

section One

variable (ht : t.WellFormed)
include ht

/-- What the table has for one type. -/
theorem lookup_unary (s : Signature) {κ : Type} (cs : List κ) (type : κ → Descriptor)
    {entry : κ → Entry} (hs : s.instantiated = true)
    (rows : Export.all.filter (fun e => e.module = s.module ∧ e.operation = s.name) =
      cs.map fun c => ⟨s.module, s.name, [type c], entry c⟩)
    (hc : cs ≠ []) {x : Option κ} (read : ∀ c, x = some c ↔ c ∈ cs ∧ t = type c) :
    Export.lookup (s.symbol [t]) = x.map entry :=
  lookup_rows s cs (fun c => [type c]) hs rows hc (by simpa using ht) (fun _ => rfl)
    (by simpa using read)

/-- What the table has for one type, when there is an instance for each precision. -/
theorem lookup_precision (s : Signature) (hs : s.instantiated = true) {entry : Precision → Entry}
    (rows : Export.all.filter (fun e => e.module = s.module ∧ e.operation = s.name) =
      Export.precisions.map fun p => ⟨s.module, s.name, [.float p], entry p⟩) :
    Export.lookup (s.symbol [t]) = t.float?.map entry :=
  lookup_unary ht s Export.precisions .float hs rows (by decide)
    (by simp [Descriptor.float?_eq_some_iff, Export.mem_precisions])

theorem lookup_identity : Export.lookup (Signature.identity.symbol [t]) =
    (t.primitive?.filter (· ≠ .string)).map .identity := by
  refine lookup_unary ht .identity (.bool :: Numeric.all.map .numeric) .primitive rfl rfl
    (by decide) fun p => ?_
  have some : p ∈ Primitive.bool :: Numeric.all.map .numeric ↔ p ≠ .string := by
    cases p <;> simp [Numeric.mem_all]
  simp [Option.filter_eq_some_iff, Descriptor.primitive?_eq_some_iff, some, and_comm]

theorem lookup_clamp : Export.lookup (Signature.clamp.symbol [t]) = t.numeric?.map .clamp :=
  lookup_unary ht .clamp Numeric.all .numeric rfl rfl (by decide)
    (by simp [Descriptor.numeric?_eq_some_iff, Numeric.mem_all])

theorem lookup_boundedSum :
    Export.lookup (Signature.boundedSum.symbol [t]) = t.float?.map .boundedSum :=
  lookup_precision ht .boundedSum rfl rfl

theorem lookup_laplace : Export.lookup (Signature.laplace.symbol [t]) = t.float?.map .laplace :=
  lookup_precision ht .laplace rfl rfl

theorem lookup_gaussian : Export.lookup (Signature.gaussian.symbol [t]) = t.float?.map .gaussian :=
  lookup_precision ht .gaussian rfl rfl

theorem lookup_count : Export.lookup (Signature.count.symbol [t]) = t.primitive?.map .count :=
  lookup_unary ht .count Primitive.all .primitive rfl rfl (by decide)
    (by simp [Descriptor.primitive?_eq_some_iff, Primitive.mem_all])

theorem lookup_geometric :
    Export.lookup (Signature.geometric.symbol [t]) = t.integer?.map .geometric :=
  lookup_unary ht .geometric Export.integers .integer rfl rfl (by decide)
    (by simp [Descriptor.integer?_eq_some_iff, Export.mem_integers])

end One

theorem lookup_boundedMean {i o : Descriptor} (hi : i.WellFormed) (ho : o.WellFormed) :
    Export.lookup (Signature.boundedMean.symbol [i, o]) =
      (Metric.ofMean? i o).map fun x => .boundedMean x.1 := by
  refine lookup_rows .boundedMean
    (Export.precisions.flatMap fun p => (Export.meanMetrics p).map (p, ·))
    (fun x => [x.2.1.descriptor, x.2.2.descriptor]) rfl rfl (by decide)
    (by simpa using ⟨hi, ho⟩) (fun _ => rfl) fun (p, input, output) => ?_
  simpa [Metric.ofMean?_eq_some_iff, ← Export.mem_meanMetrics, Export.mem_precisions] using
    and_rotate.symm

theorem lookup_amplify {i o : Descriptor} (hi : i.WellFormed) (ho : o.WellFormed) :
    Export.lookup (Signature.amplify.symbol [i, o]) = (i.interval?.filter fun p =>
      o = (Measure.maxDivergence p).descriptor).map fun _ => .amplify := by
  refine lookup_rows .amplify Export.precisions
    (fun p => [.generic "IntervalDomain" [.float p], (Measure.maxDivergence p).descriptor]) rfl rfl
    (by decide) (by simpa using ⟨hi, ho⟩) (fun _ => rfl) fun p => ?_
  simp [Option.filter_eq_some_iff, Descriptor.interval?_eq_some_iff, Export.mem_precisions]

theorem lookup_fixDelta (p : Precision) :
    Export.lookup (Signature.fixDelta.symbol [(Measure.smoothedMaxDivergence p).descriptor]) =
      some (.fixDelta p) := by
  refine lookup_unary (x := some p) (Measure.wellFormed _) .fixDelta Export.precisions
    (fun p => (Measure.smoothedMaxDivergence p).descriptor) rfl rfl (by decide) fun c => ?_
  simp [Export.mem_precisions, Measure.descriptor, Descriptor.float, Descriptor.numeric]

end Host

end PrivateRelease
