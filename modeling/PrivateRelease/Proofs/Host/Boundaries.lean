import PrivateRelease.Proofs.Domain.Printing
import PrivateRelease.Proofs.Host.Refinement
import PrivateRelease.Proofs.Number.Rounding

/-!
# Compatible entities

Before it chains or composes entities, the host compares what they print; the library compares the
structures once more. The host accepts exactly what the library accepts, except that it also insists on
the signs of zero bounds, which the library takes for equal.
-/

namespace PrivateRelease

/-! ## The checks of the library -/

theorem checkBoundary_eq_ok_iff {first : Transformation} {d : Domain} {m : Metric} :
    checkBoundary first d m = .ok () ↔ first.outputDomain.same d ∧ first.outputMetric = m := by
  refine ⟨checkBoundary_eq_ok, fun ⟨domain, metric⟩ => ?_⟩
  simp [checkBoundary, domain, metric]

theorem Measurement.checkAgree_eq_ok_iff {first : Measurement} {index : Nat}
    {ms : List Measurement} : checkAgree first index ms = .ok () ↔ ∀ m ∈ ms, Agrees first m := by
  refine ⟨checkAgree_eq_ok, fun h => ?_⟩
  induction ms generalizing index with
  | nil => rfl
  | cons m ms ih =>
    obtain ⟨⟨domain, metric, measure⟩, rest⟩ := List.forall_mem_cons.mp h
    simp [checkAgree, domain, metric, measure, ih rest]

namespace Transformation

variable {q : Numeric} {lower upper : q.Carrier}

theorem checkBounds_of_le (ordered : Numeric.le lower upper) :
    checkBounds (.numeric q) lower upper = .ok () := by
  have order : Primitive.order (p := .numeric q) lower upper = Numeric.order lower upper := rfl
  rw [checkBounds, order]
  unfold Numeric.le at ordered
  split at ordered
  · next o ho =>
    rw [ho]
    cases o with
    | gt => cases ordered
    | _ => rfl
  · cases ordered

theorem between_of_le (ordered : Numeric.le lower upper) :
    between (.numeric q) lower upper = .ok (.interval q lower upper ordered) := by
  simp [between, Domain.ofValues, Value.scalar?_scalar, Domain.ofBounds, ordered]

end Transformation

theorem Mechanism.holding_injective {m n : Mechanism} (h : m.holding = n.holding) : m = n := by
  cases m <;> cases n <;> cases h <;> rfl

namespace Host

open Stop

theorem accept_eq_ok_iff {α : Type} {r : Except Failure α} {a : α} :
    accept r = .ok a ↔ r = .ok a := mapError_eq_ok_iff

theorem require_eq_ok_iff {b : Bool} : require b = .ok () ↔ b := by
  cases b <;> simp [require]

variable [Elementary]

/-! ## What is printed fits -/

theorem expectBoundary_eq_ok_iff {f : Transformation} {g : Mechanism} (hf : f.Built)
    (hg : g.Built) :
    expectBoundary (Mechanism.transformation f).descriptors g.descriptors = .ok () ↔
      checkBoundary f g.inputDomain g.inputMetric = .ok () ∧
        f.outputDomain.zeroSigns = g.inputDomain.zeroSigns := by
  rw [← accept_eq_ok_iff, accept_expectBoundary, require_bind, require_eq_ok_iff,
    checkBoundary_eq_ok_iff, Bool.and_eq_true, decide_eq_true_eq, decide_eq_true_eq]
  show f.outputDomain.toText = _ ∧ f.outputMetric.toText = _ ↔ _
  rw [Domain.toText_eq_iff hf.describable.output hg.input, Metric.toText_eq_iff]
  tauto

/-- What is printed of a measurement fits the first one. -/
theorem printed_eq_iff {first m : Measurement} (hf : first.Built) (hm : m.Built) :
    (first.inputDomain.toText = m.inputDomain.toText ∧
      first.inputMetric.toText = m.inputMetric.toText ∧
      first.outputMeasure.toText = m.outputMeasure.toText) ↔
    first.Agrees m ∧ m.inputDomain.zeroSigns = first.inputDomain.zeroSigns := by
  rw [eq_comm (a := first.inputDomain.toText), Domain.toText_eq_iff hm.describable.input
    hf.describable.input, Metric.toText_eq_iff, Measure.toText_eq_iff]
  constructor
  · rintro ⟨⟨domain, signs⟩, metric, measure⟩
    exact ⟨⟨domain, metric.symm, measure.symm⟩, signs⟩
  · rintro ⟨⟨domain, metric, measure⟩, signs⟩
    exact ⟨⟨domain, signs⟩, metric.symm, measure.symm⟩

theorem expectCompatible_eq_ok_iff {es : List (Entity .measurement)} {ms : List Measurement}
    (h : Represented es ms) :
    expectCompatible es = .ok () ↔ ∀ first rest, ms = first :: rest →
      Measurement.checkAgree first 1 rest = .ok () ∧
        ∀ m ∈ rest, m.inputDomain.zeroSigns = first.inputDomain.zeroSigns := by
  have built := h.built
  rw [← accept_eq_ok_iff, accept_expectCompatible h, require_eq_ok_iff]
  cases ms with
  | nil => simp [agree]
  | cons first rest =>
    obtain ⟨hf, hr⟩ := List.forall_mem_cons.mp built
    have printed : agree (first :: rest) ↔ ∀ m ∈ rest,
        first.Agrees m ∧ m.inputDomain.zeroSigns = first.inputDomain.zeroSigns := by
      rw [agree, List.all_eq_true]
      refine forall₂_congr fun m hm => ?_
      rw [decide_eq_true_eq, printed_eq_iff hf (hr m hm)]
    have checked : Measurement.checkAgree first 1 rest = .ok () ↔ ∀ m ∈ rest, first.Agrees m :=
      Measurement.checkAgree_eq_ok_iff
    rw [printed, forall₂_and, ← checked]
    constructor
    · rintro h _ _ ⟨rfl, rfl⟩
      exact h
    · exact fun h => h first rest rfl

/-! ## Entities of programs -/

namespace AnyEntity

/-- Some program makes the entity. -/
def Reachable (e : AnyEntity) : Prop := ∃ (p : Program) (l : Boundary.Ledger), (p.run l).1 = .ok e

/-- The entity holds the mechanism. -/
def Holds (e : AnyEntity) (m : Mechanism) : Prop := e.handle.holding = m.holding

theorem Reachable.exists_represents {e : AnyEntity} (reachable : e.Reachable) :
    ∃ m, e.Represents m := by
  obtain ⟨p, l, made⟩ := reachable
  have refined := p.run_refines l.tape
  match p.denote, refined with
  | .ok m, ⟨e', represents, made'⟩ =>
    obtain rfl := Except.ok.inj (made.symm.trans (made' l rfl).1)
    exact ⟨m, represents⟩
  | .error (.failed why), made' => cases made.symm.trans (made' l rfl).1
  | .error .refused, ⟨f, made'⟩ => cases made.symm.trans (made' l rfl).1

theorem Reachable.represents {e : AnyEntity} {m : Mechanism} (reachable : e.Reachable)
    (holds : e.Holds m) : e.Represents m := by
  obtain ⟨n, represents⟩ := reachable.exists_represents
  have held : e.handle.holding = n.holding := by
    cases e <;> exact Entity.Represents.holding represents
  rwa [Mechanism.holding_injective (holds.symm.trans held)]

theorem Represents.descriptors {e : AnyEntity} {m : Mechanism} (h : e.Represents m) :
    e.descriptors = m.descriptors := by
  cases e <;> exact Entity.Represents.descriptors h

theorem Represents.built {e : AnyEntity} {m : Mechanism} (h : e.Represents m) : m.Built := by
  cases e <;> exact Entity.Represents.built h

/-- A program makes an entity for the mechanism that it denotes. -/
theorem exists_reachable {p : Program} {m : Mechanism} (h : p.denote = .ok m) :
    ∃ e : AnyEntity, e.Reachable ∧ e.Represents m := by
  let l := Boundary.Ledger.start (.seeded 0)
  have refined := p.run_refines l.tape
  rw [h] at refined
  obtain ⟨e, represents, made⟩ := refined
  exact ⟨e, ⟨p, l, (made l rfl).1⟩, represents⟩

theorem exists_transformation {p : Program} {f : Transformation}
    (h : p.denote = .ok (.transformation f)) : ∃ e : Entity .transformation,
      (transformation e).Reachable ∧ (transformation e).Holds (.transformation f) := by
  obtain ⟨e, reachable, represents⟩ := exists_reachable h
  cases e with
  | transformation e => exact ⟨e, reachable, Entity.Represents.holding represents⟩
  | measurement e => cases Entity.Represents.role represents

theorem exists_measurement {p : Program} {m : Measurement}
    (h : p.denote = .ok (.measurement m)) : ∃ e : Entity .measurement,
      (measurement e).Reachable ∧ (measurement e).Holds (.measurement m) := by
  obtain ⟨e, reachable, represents⟩ := exists_reachable h
  cases e with
  | transformation e => cases Entity.Represents.role represents
  | measurement e => exact ⟨e, reachable, Entity.Represents.holding represents⟩

end AnyEntity

/-! ## Entities with given bounds -/

section Bounds

variable {a b : Binary .double}

theorem Program.denote_clamp (l : Library) (a b : Binary .double) :
    (Program.make l (.clamp (.float a) (.float b)) []).denote =
      Mechanism.transformation <$> core (Transformation.clamp (.numeric (.float .double)) a b) := by
  show (core (Transformation.clamp (.numeric (.float .double)) a.convert b.convert) >>=
    fun t => pure (Mechanism.transformation t)) = _
  rw [Binary.convert_self, Binary.convert_self]
  rfl

theorem Program.denote_boundedSum {l : Library}
    (enabled : l.features.isEnabled Features.floatingPoint) (a b : Binary .double) :
    (Program.make l (.boundedSum (.float a) (.float b)) []).denote =
      Mechanism.transformation <$> core (Transformation.boundedSum .double a b) := by
  show (require (l.features.isEnabled Features.floatingPoint) >>= fun _ =>
    core (Transformation.boundedSum .double a.convert b.convert) >>=
      fun t => pure (Mechanism.transformation t)) = _
  rw [Binary.convert_self, Binary.convert_self, enabled]
  rfl

theorem AnyEntity.exists_clamp (ordered : Numeric.le (q := .float .double) a b) :
    ∃ (e : Entity .transformation) (t : Transformation),
      (transformation e).Reachable ∧ (transformation e).Holds (.transformation t) ∧
      t.outputDomain = .vector (.interval (.float .double) a b ordered) ∧
      t.outputMetric = .symmetricDistance := by
  obtain ⟨t, made, output, metric⟩ : ∃ t,
      Transformation.clamp (.numeric (.float .double)) a b = .ok t ∧
      t.outputDomain = .vector (.interval (.float .double) a b ordered) ∧
      t.outputMetric = .symmetricDistance := by
    rw [Transformation.clamp, Transformation.checkBounds_of_le ordered,
      Transformation.between_of_le ordered]
    exact ⟨_, rfl, rfl, rfl⟩
  have denoted := Program.denote_clamp ⟨.none⟩ a b
  rw [made] at denoted
  obtain ⟨e, reachable, holds⟩ := exists_transformation denoted
  exact ⟨e, t, reachable, holds, output, metric⟩

theorem AnyEntity.exists_boundedSum (ordered : Numeric.le (q := .float .double) a b) :
    ∃ (e : Entity .transformation) (t : Transformation),
      (transformation e).Reachable ∧ (transformation e).Holds (.transformation t) ∧
      t.inputDomain = .vector (.interval (.float .double) a b ordered) ∧
      t.inputMetric = .symmetricDistance := by
  obtain ⟨t, made, input, metric⟩ : ∃ t, Transformation.boundedSum .double a b = .ok t ∧
      t.inputDomain = .vector (.interval (.float .double) a b ordered) ∧
      t.inputMetric = .symmetricDistance := by
    rw [Transformation.boundedSum, Transformation.checkBounds_of_le ordered,
      Transformation.between_of_le ordered]
    exact ⟨_, rfl, rfl, rfl⟩
  have denoted := Program.denote_boundedSum (l := ⟨⟨[Features.floatingPoint]⟩⟩) rfl a b
  rw [made] at denoted
  obtain ⟨e, reachable, holds⟩ := exists_transformation denoted
  exact ⟨e, t, reachable, holds, input, metric⟩

end Bounds

/-! ## The checks of the host -/

/-- The host accepts two entities for a chain, or measurements for a composition, if and only if the
library accepts what they hold and the zero bounds in the compared domains have the same signs. -/
theorem checks_agree_up_to_signs :
    (∀ {first : Entity .transformation} {second : AnyEntity} {f : Transformation} {g : Mechanism},
      (AnyEntity.transformation first).Reachable → second.Reachable →
      (AnyEntity.transformation first).Holds (.transformation f) → second.Holds g →
      (expectBoundary first.descriptors second.descriptors = .ok () ↔
        checkBoundary f g.inputDomain g.inputMetric = .ok () ∧
          f.outputDomain.zeroSigns = g.inputDomain.zeroSigns)) ∧
    ∀ {es : List (Entity .measurement)} {ms : List Measurement},
      (∀ e ∈ es, (AnyEntity.measurement e).Reachable) →
      List.Forall₂ (fun e m => (AnyEntity.measurement e).Holds (.measurement m)) es ms →
      (expectCompatible es = .ok () ↔ ∀ first rest, ms = first :: rest →
        Measurement.checkAgree first 1 rest = .ok () ∧
          ∀ m ∈ rest, m.inputDomain.zeroSigns = first.inputDomain.zeroSigns) := by
  constructor
  · intro first second f g reachable reachable' holds holds'
    have hf : first.Represents (.transformation f) := reachable.represents holds
    have hg := reachable'.represents holds'
    rw [hf.descriptors, hg.descriptors]
    exact expectBoundary_eq_ok_iff hf.built hg.built
  · intro es ms reachable holds
    have both := (List.forall₂_and_left es ms).mpr ⟨reachable, holds⟩
    exact expectCompatible_eq_ok_iff (both.imp fun e m h => h.1.represents h.2)

omit [Elementary] in
/-- A clamp and a sum that both start from `-0.0`, and two measurements alike. -/
theorem accepts_equal_signs :
    letI := Elementary.machine
    ∃ (first second : Entity .transformation) (e : Entity .measurement),
      (AnyEntity.transformation first).Reachable ∧ (AnyEntity.transformation second).Reachable ∧
      (AnyEntity.measurement e).Reachable ∧
      expectBoundary first.descriptors second.descriptors = .ok () ∧
      expectCompatible [e, e] = .ok () := by
  let _ := Elementary.machine
  obtain ⟨first, f, hf, holds, output, outputMetric⟩ := AnyEntity.exists_clamp
    (a := .zero true) (b := .infinite false) (by decide)
  obtain ⟨second, g, hg, holds', input, inputMetric⟩ := AnyEntity.exists_boundedSum
    (a := .zero true) (b := .infinite false) (by decide)
  obtain ⟨m, geometric⟩ : ∃ m, (Program.make ⟨.none⟩
    (.geometric (.number false 1 (by decide))) [("T", .host .int)]).denote =
      .ok (.measurement m) := ⟨_, rfl⟩
  obtain ⟨e, he, held⟩ := AnyEntity.exists_measurement geometric
  refine ⟨first, second, e, hf, hg, he, ?_, ?_⟩
  · refine (checks_agree_up_to_signs.1 hf hg holds holds').mpr ⟨?_, ?_⟩
    · rw [checkBoundary_eq_ok_iff, output]
      exact ⟨input ▸ Domain.same_self _, outputMetric.trans inputMetric.symm⟩
    · exact congrArg Domain.zeroSigns (output.trans input.symm)
  · refine (checks_agree_up_to_signs.2 (by simpa using he) (.cons held (.cons held .nil))).mpr ?_
    rintro _ _ ⟨rfl, rfl⟩
    refine ⟨Measurement.checkAgree_eq_ok_iff.mpr ?_, by simp⟩
    simpa using ⟨Domain.same_self _, rfl, rfl⟩

omit [Elementary] in
/-- The host refuses a clamp from `-0.0` to `1.0` before a sum from `0.0` to `1.0`, a boundary that the
library accepts. -/
theorem signed_zeros_refused :
    letI := Elementary.machine
    ∃ (first second : Entity .transformation) (f g : Transformation),
      (AnyEntity.transformation first).Reachable ∧ (AnyEntity.transformation second).Reachable ∧
      (AnyEntity.transformation first).Holds (.transformation f) ∧
      (AnyEntity.transformation second).Holds (.transformation g) ∧
      checkBoundary f g.inputDomain g.inputMetric = .ok () ∧
      expectBoundary first.descriptors second.descriptors ≠ .ok () := by
  let _ := Elementary.machine
  let one : Binary .double := .number false 0x3FF0000000000000 (by decide)
  obtain ⟨first, f, hf, holds, output, outputMetric⟩ := AnyEntity.exists_clamp
    (a := .zero true) (b := one) (by decide)
  obtain ⟨second, g, hg, holds', input, inputMetric⟩ := AnyEntity.exists_boundedSum
    (a := .zero false) (b := one) (by decide)
  refine ⟨first, second, f, g, hf, hg, holds, holds', ?_, fun accepted => ?_⟩
  · rw [checkBoundary_eq_ok_iff, output, input, outputMetric, inputMetric]
    exact ⟨by decide, rfl⟩
  · have rf : first.Represents (.transformation f) := hf.represents holds
    have rg : second.Represents (.transformation g) := hg.represents holds'
    rw [rf.descriptors, rg.descriptors, expectBoundary_eq_ok_iff rf.built rg.built] at accepted
    have signs : f.outputDomain.zeroSigns = g.inputDomain.zeroSigns := accepted.2
    rw [output, input] at signs
    exact absurd signs (by decide)

end Host

end PrivateRelease
