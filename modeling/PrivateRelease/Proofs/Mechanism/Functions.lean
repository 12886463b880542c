import PrivateRelease.Mechanism
import PrivateRelease.Proofs.Mechanism.Losses
import PrivateRelease.Proofs.Text.NulFree

/-!
# Functions of built mechanisms

The functions of built mechanisms take values without curves to values without curves, and their
domains are over types that can be read back. Whatever fails on the way, in a function or in a
constructor, names only such domains and types.
-/

namespace PrivateRelease

open Error (WellFormed)

/-- A value with no curve in it. -/
inductive Value.IsPlain : Value → Prop
  | scalar (p : Primitive) (x : p.Carrier) : IsPlain (.scalar p x)
  | vector (p : Primitive) (xs : List p.Carrier) : IsPlain (.vector p xs)
  | tuple {items : List Value} (h : ∀ v ∈ items, IsPlain v) : IsPlain (.tuple items)

namespace Value

theorem IsPlain.wellFormed {v : Value} (h : v.IsPlain) : v.type.WellFormed := by
  induction h with
  | scalar p x => exact .primitive p
  | vector p xs => exact Descriptor.wellFormed_vector (.primitive p)
  | tuple h ih =>
    rw [type, types_eq_map]
    exact .tuple (by simpa using ih)

theorem wanted_wellFormed {α : Type} {v : Value} (hv : v.IsPlain) {what : Error.Wanted}
    (hw : ∀ d, what = .type d → d.WellFormed) {P : α → Prop} :
    Yields WellFormed P (v.wanted what) :=
  Error.BadCast.nulFree_wanted hw hv.wellFormed

theorem toScalar_yields {v : Value} (hv : v.IsPlain) (p : Primitive) :
    Yields WellFormed (fun _ => True) (v.toScalar p) := by
  unfold toScalar
  split
  · trivial
  · exact wanted_wellFormed hv fun d hd => by cases hd; exact .primitive p

theorem toVector_yields {v : Value} (hv : v.IsPlain) (p : Primitive) :
    Yields WellFormed (fun _ => True) (v.toVector p) := by
  unfold toVector
  split
  · trivial
  · exact wanted_wellFormed hv fun d hd => by
      cases hd
      exact Descriptor.wellFormed_vector (.primitive p)

theorem length_yields {v : Value} (hv : v.IsPlain) (p : Primitive) :
    Yields WellFormed (fun _ => True) (v.length (.primitive p)) := by
  have wanted : Yields WellFormed (fun _ : Nat => True)
      (v.wanted (.type (.vector (.primitive p)))) :=
    wanted_wellFormed hv fun d hd => by
      cases hd
      exact Descriptor.wellFormed_vector (.primitive p)
  cases v with
  | vector q xs =>
    simp only [length]
    split
    · trivial
    · exact wanted
  | _ => exact wanted

end Value

theorem Error.IsUnusable.wellFormed {e : Error} (h : e.IsUnusable) : e.WellFormed := by
  unfold IsUnusable at h
  split at h
  · trivial
  · trivial
  · cases h

/-! ## Transformations -/

namespace Transformation

theorem between_yields {q : Numeric} (lower upper : q.Carrier) :
    Yields WellFormed Domain.WellFormed (between (.numeric q) lower upper) := by
  simp only [between, Domain.ofValues, Value.scalar?_scalar, Domain.ofBounds]
  split
  · next hd =>
    split at hd
    · cases hd
      exact .interval
    · cases hd
  · next hd =>
    split at hd
    · cases hd
    · cases hd
      show Text.NulFree s!"lower bound {_} may not exceed upper bound {_}"
      simp only [toString, Text.nulFree_append, Numeric.nulFree_toText]
      decide

theorem checkBounds_yields {q : Numeric} (lower upper : q.Carrier) :
    Yields WellFormed (fun _ => True) (checkBounds (.numeric q) lower upper) := by
  unfold checkBounds
  split
  · trivial
  · trivial
  · exact nofun

theorem clamp_yields {q : Numeric} (lower upper : q.Carrier) :
    Yields WellFormed (fun _ => True) (clamp (.numeric q) lower upper) :=
  (checkBounds_yields lower upper).bind fun _ _ =>
    (between_yields lower upper).bind fun _ _ => trivial

theorem boundedSum_yields {p : Precision} (lower upper : Binary p) :
    Yields WellFormed (fun _ => True) (boundedSum p lower upper) :=
  (checkBounds_yields (q := .float p) lower upper).bind fun _ _ =>
    (between_yields (q := .float p) lower upper).bind fun _ _ => trivial

theorem boundedMean_yields {p : Precision} (lower upper : Binary p) (n : Nat)
    (inputMetric outputMetric : Metric) :
    Yields WellFormed (fun _ => True) (boundedMean p lower upper n inputMetric outputMetric) := by
  refine (checkBounds_yields (q := .float p) lower upper).bind fun _ _ => ?_
  by_cases hn : n = 0
  · simp only [hn, if_true]
    trivial
  simp only [hn, if_false]
  cases inputMetric.oneRecord? with
  | none => trivial
  | some oneRecord =>
    cases isSensitivity p outputMetric with
    | false => trivial
    | true => exact (between_yields (q := .float p) lower upper).bind fun _ _ => trivial

theorem checkBoundary_yields {first : Transformation} {d : Domain} {m : Metric}
    (hf : first.outputDomain.WellFormed) (hd : d.WellFormed) :
    Yields WellFormed (fun _ => True) (checkBoundary first d m) := by
  unfold checkBoundary
  split
  · exact ⟨hf, hd⟩
  · split
    · trivial
    · trivial

/-- Both domains are over types that can be read back, and values without curves are taken to such
values. -/
structure Describable (t : Transformation) : Prop where
  input : t.inputDomain.WellFormed
  output : t.outputDomain.WellFormed
  function : ∀ {v : Value}, v.IsPlain → Yields WellFormed Value.IsPlain (t.function v)

theorem between_wellFormed {p : Primitive} {lower upper : p.Carrier} {d : Domain}
    (h : between p lower upper = .ok d) : d.WellFormed := by
  unfold between Domain.ofValues at h
  cases p with
  | numeric q =>
    simp only [Value.scalar?_scalar, Domain.ofBounds] at h
    split at h
    · next hd =>
      cases h
      split at hd
      · cases hd
        exact .interval
      · cases hd
    · cases h
  | bool => cases h
  | string => cases h

theorem vector_wellFormed (p : Primitive) : (Domain.vector (.all (.primitive p))).WellFormed :=
  .vector (.all (.primitive p))

theorem all_wellFormed (q : Numeric) : (Domain.all (.numeric q)).WellFormed :=
  .all (Descriptor.wellFormed_numeric q)

theorem Built.describable {t : Transformation} (h : t.Built) : t.Describable := by
  induction h with
  | identity p => exact ⟨vector_wellFormed p, vector_wellFormed p, fun hv => hv⟩
  | clamp h =>
    obtain ⟨_, hb, rfl⟩ := clamp_eq_ok h
    refine ⟨vector_wellFormed _, .vector (between_wellFormed hb), fun hv => ?_⟩
    exact (Value.toVector_yields hv _).bind fun xs _ => .vector _ _
  | boundedSum h =>
    obtain ⟨_, hb, rfl⟩ := boundedSum_eq_ok h
    refine ⟨.vector (between_wellFormed hb), all_wellFormed _, fun hv => ?_⟩
    exact (Value.toVector_yields hv _).bind fun xs _ => .scalar _ _
  | boundedMean h =>
    obtain ⟨_, _, _, _, _, hb, rfl⟩ := boundedMean_eq_ok h
    refine ⟨.sized (.vector (between_wellFormed hb)), all_wellFormed _, fun hv => ?_⟩
    exact (Value.toVector_yields hv _).bind fun xs _ => .scalar _ _
  | count p =>
    refine ⟨vector_wellFormed p, all_wellFormed _, fun hv => ?_⟩
    exact (Value.length_yields hv p).bind fun n _ => .scalar _ _
  | chain _ _ h second first =>
    obtain ⟨_, _, rfl⟩ := chain_eq_ok h
    exact ⟨first.input, second.output, fun hv =>
      (first.function hv).bind fun w hw => second.function hw⟩

end Transformation

theorem checkMember_yields {d : Domain} {v : Value} (hd : d.WellFormed) (hv : v.IsPlain) :
    Yields WellFormed (fun _ => True) (checkMember d v) := by
  unfold checkMember
  split
  · trivial
  · exact ⟨hv.wellFormed, hd⟩

/-! ## Measurements -/

/-- On every tape, a value with `P` or an error with `E`. -/
def Sampling.Gives {α : Type} (E : Error → Prop) (P : α → Prop) (s : Sampling α) : Prop :=
  ∀ t, Yields E (fun r => P r.1) (s t)

/-- On every tape, a value with `P` or an error that names only what can be read back. -/
abbrev Sampling.Releases {α : Type} (P : α → Prop) (s : Sampling α) : Prop := Gives WellFormed P s

namespace Sampling

variable {α β : Type} {E : Error → Prop} {P : α → Prop} {Q : β → Prop}

theorem Gives.pure {x : α} (h : P x) : Gives E P (Pure.pure x) := fun _ => h

theorem Gives.bind {s : Sampling α} {f : α → Sampling β} (hs : Gives E P s)
    (hf : ∀ x, P x → Gives E Q (f x)) : Gives E Q (s >>= f) := fun t =>
  (hs t).bind fun r hr => hf r.1 hr r.2

theorem gives_ofExcept {r : Except Error α} (h : Yields E P r) : Gives E P (ofExcept r) := fun t => by
  cases r with
  | ok x => exact h
  | error e => exact h

theorem gives_draw : Gives E (fun _ => True) draw := fun _ => trivial

theorem gives_uniform : Gives E (fun _ => True) uniform := fun _ => trivial

theorem Gives.mapM {xs : List α} {f : α → Sampling β} (h : ∀ x ∈ xs, Gives E Q (f x)) :
    Gives E (fun ys => ∀ y ∈ ys, Q y) (xs.mapM f) := by
  induction xs with
  | nil => exact .pure (by simp)
  | cons x xs ih =>
    rw [List.mapM_cons]
    refine (h x List.mem_cons_self).bind fun y hy => ?_
    refine (ih fun z hz => h z (List.mem_cons_of_mem x hz)).bind fun ys hys => ?_
    exact .pure (by simpa using ⟨hy, hys⟩)

end Sampling

open Sampling (Releases)

namespace Noise

variable {E : Error → Prop} {scale : Binary .double}

/-- Noise is refused for no other reason than its scale. -/
theorem checkScale_gives (refused : E (.badInput (.noiseScale scale))) :
    Sampling.Gives E (fun _ => True) (checkScale scale) := by
  unfold checkScale
  split
  · exact .pure trivial
  · exact fun _ => refused

variable [Elementary]

theorem laplace_gives (refused : E (.badInput (.noiseScale scale))) :
    Sampling.Gives E (fun _ => True) (laplace scale) :=
  (checkScale_gives refused).bind fun _ _ => Sampling.gives_draw.bind fun _ _ => .pure trivial

theorem gaussian_gives (refused : E (.badInput (.noiseScale scale))) :
    Sampling.Gives E (fun _ => True) (gaussian scale) :=
  (checkScale_gives refused).bind fun _ _ => Sampling.gives_draw.bind fun _ _ =>
    Sampling.gives_uniform.bind fun _ _ => .pure trivial

theorem geometric_gives (refused : E (.badInput (.noiseScale scale))) :
    Sampling.Gives E (fun _ => True) (geometric scale) :=
  (checkScale_gives refused).bind fun _ _ => Sampling.gives_draw.bind fun _ _ =>
    Sampling.gives_draw.bind fun _ _ => .pure trivial

end Noise

namespace Measurement

/-- As for transformations, whatever is drawn. -/
structure Describable (m : Measurement) : Prop where
  input : m.inputDomain.WellFormed
  output : m.outputDomain.WellFormed
  function : ∀ {v : Value}, v.IsPlain → Releases Value.IsPlain (m.function v)

theorem checkScale_yields (scale : Binary .double) :
    Yields WellFormed (fun _ => True) (checkScale scale) := by
  unfold checkScale
  split
  · trivial
  · trivial

theorem addNoise_releases {p : Precision} {noise : Sampling (Binary .double)}
    (h : Releases (fun _ => True) noise) {v : Value} (hv : v.IsPlain) :
    Releases Value.IsPlain (addNoise p noise v) :=
  (Sampling.gives_ofExcept (Value.toScalar_yields hv _)).bind fun _ _ =>
    h.bind fun _ _ => .pure (.scalar _ _)

theorem checkAgree_yields {first : Measurement} (hf : first.inputDomain.WellFormed) (index : Nat)
    {ms : List Measurement} (h : ∀ m ∈ ms, m.inputDomain.WellFormed) :
    Yields WellFormed (fun _ => True) (checkAgree first index ms) := by
  induction ms generalizing index with
  | nil => trivial
  | cons m ms ih =>
    unfold checkAgree
    split
    · exact ⟨h m List.mem_cons_self, hf⟩
    split
    · trivial
    split
    · trivial
    · exact ih _ fun part hp => h part (List.mem_cons_of_mem m hp)

theorem supports_yields (rule : CompositionRule) (m : Measure) :
    Yields WellFormed (fun _ => True) (rule.supports m) := by
  unfold CompositionRule.supports
  split <;> trivial

theorem ofDeltaPrime_yields (deltaPrime : Binary .double) :
    Yields WellFormed CompositionRule.IsProper (CompositionRule.ofDeltaPrime deltaPrime) := by
  unfold CompositionRule.ofDeltaPrime
  split
  · assumption
  · trivial

theorem fixDelta_yields (m : Measurement) (delta : Binary .double) :
    Yields WellFormed (fun _ => True) (m.fixDelta delta) := by
  unfold fixDelta
  cases m.outputMeasure with
  | smoothedMaxDivergence p =>
    cases Curve.isProbability delta <;> trivial
  | maxDivergence p => trivial
  | fixedSmoothedMaxDivergence p => trivial

variable [Elementary]

theorem laplace_yields {p : Precision} (scale : Binary p) :
    Yields WellFormed (fun _ => True) (laplace p scale) :=
  (checkScale_yields _).bind fun _ _ => trivial

theorem gaussian_yields {p : Precision} (scale : Binary p) :
    Yields WellFormed (fun _ => True) (gaussian p scale) :=
  (checkScale_yields _).bind fun _ _ => trivial

theorem geometric_yields (k : IntegerType) (scale : Binary .double) :
    Yields WellFormed (fun _ => True) (geometric k scale) :=
  (checkScale_yields _).bind fun _ _ => trivial

theorem compose_yields {rule : CompositionRule} {ms : List Measurement}
    (h : ∀ m ∈ ms, m.inputDomain.WellFormed) :
    Yields WellFormed (fun _ => True) (compose rule ms) := by
  cases ms with
  | nil => trivial
  | cons first rest =>
    have agree := checkAgree_yields (h first List.mem_cons_self) 1
      fun m hm => h m (List.mem_cons_of_mem first hm)
    exact agree.bind fun _ _ => (supports_yields rule _).bind fun _ _ => trivial

theorem amplify_yields {m : Measurement} (h : m.inputDomain.WellFormed) (population : Nat) :
    Yields WellFormed (fun _ => True) (m.amplify population) := by
  unfold amplify
  cases m.inputDomain.sizedRecords? with
  | none => exact h
  | some domain =>
    obtain ⟨records, sample⟩ := domain
    by_cases hn : sample = 0 ∨ population < sample
    · simp only [hn, if_true]
      trivial
    simp only [hn, if_false]
    cases m.outputMeasure with
    | maxDivergence p =>
      cases m.inputMetric.oneRecord? with
      | none => trivial
      | some unit => trivial
    | smoothedMaxDivergence p => trivial
    | fixedSmoothedMaxDivergence p => trivial

theorem Built.describable {m : Measurement} (h : m.Built) : m.Describable := by
  induction h with
  | laplace h =>
    obtain ⟨_, rfl⟩ := laplace_eq_ok h
    refine ⟨Transformation.all_wellFormed _, Transformation.all_wellFormed _, fun hv => ?_⟩
    exact addNoise_releases (Noise.laplace_gives trivial) hv
  | gaussian h =>
    obtain ⟨_, rfl⟩ := gaussian_eq_ok h
    refine ⟨Transformation.all_wellFormed _, Transformation.all_wellFormed _, fun hv => ?_⟩
    exact addNoise_releases (Noise.gaussian_gives trivial) hv
  | geometric h =>
    obtain ⟨_, rfl⟩ := geometric_eq_ok h
    refine ⟨Transformation.all_wellFormed _, Transformation.all_wellFormed _, fun hv => ?_⟩
    exact (Sampling.gives_ofExcept (Value.toScalar_yields hv _)).bind fun _ _ =>
      (Noise.geometric_gives trivial).bind fun _ _ => .pure (.scalar _ _)
  | chain _ hf h second =>
    obtain ⟨_, _, rfl⟩ := chain_eq_ok h
    have first := hf.describable
    exact ⟨first.input, second.output, fun hv =>
      (Sampling.gives_ofExcept (first.function hv)).bind fun w hw => second.function hw⟩
  | compose _ _ h parts =>
    obtain ⟨first, rest, rfl, _, _, rfl⟩ := compose_eq_ok h
    refine ⟨(parts first List.mem_cons_self).input, .product ?_, fun hv => ?_⟩
    · intro d hd
      obtain ⟨part, hp, rfl⟩ := List.mem_map.mp hd
      exact (parts part hp).output
    · exact (Sampling.Gives.mapM fun part hp => (parts part hp).function hv).bind
        fun items hi => .pure (.tuple hi)
  | amplify _ h part =>
    obtain ⟨_, _, _, _, _, _, _, _, _, rfl⟩ := amplify_eq_ok h
    exact ⟨part.input, part.output, part.function⟩
  | fixDelta _ h part =>
    obtain ⟨_, _, _, rfl⟩ := fixDelta_eq_ok h
    exact ⟨part.input, part.output, part.function⟩

end Measurement

/-! ## Mechanisms -/

namespace Mechanism

def Built [Elementary] : Mechanism → Prop
  | transformation t => t.Built
  | measurement m => m.Built

/-- The type of output distances, or of losses. -/
def lossType : Mechanism → Descriptor
  | transformation t => t.outputMetric.distanceType
  | measurement m => m.outputMeasure.distanceType

/-- The type of the bounds that output distances, or losses, are checked against. -/
def boundType : Mechanism → Descriptor
  | transformation t => t.outputMetric.distanceType
  | measurement m => m.outputMeasure.boundType

theorem wellFormed_lossType (m : Mechanism) : m.lossType.WellFormed := by
  cases m with
  | transformation t => exact t.outputMetric.wellFormed_distanceType
  | measurement m => exact m.outputMeasure.wellFormed_distanceType

theorem wellFormed_boundType (m : Mechanism) : m.boundType.WellFormed := by
  cases m with
  | transformation t => exact t.outputMetric.wellFormed_distanceType
  | measurement m => exact m.outputMeasure.wellFormed_boundType

variable [Elementary] {m : Mechanism}

theorem Built.input (h : m.Built) : m.inputDomain.WellFormed := by
  cases m with
  | transformation t => exact (Transformation.Built.describable h).input
  | measurement m => exact (Measurement.Built.describable h).input

theorem Built.output (h : m.Built) : m.outputDomain.WellFormed := by
  cases m with
  | transformation t => exact (Transformation.Built.describable h).output
  | measurement m => exact (Measurement.Built.describable h).output

theorem Built.invoke (h : m.Built) {v : Value} (hv : v.IsPlain) :
    Releases Value.IsPlain (m.invoke v) := by
  cases m with
  | transformation t =>
    have t := Transformation.Built.describable h
    exact Sampling.gives_ofExcept
      ((checkMember_yields t.input hv).bind fun _ _ => t.function hv)
  | measurement m =>
    have m := Measurement.Built.describable h
    exact (Sampling.gives_ofExcept (checkMember_yields m.input hv)).bind fun _ _ => m.function hv

theorem Built.map (h : m.Built) {d : Value} (hd : d.type = m.inputMetric.distanceType) :
    Maps (fun l => l.type = m.lossType) (m.map d) := by
  cases m with
  | transformation t => exact (Transformation.Built.mapsDistances h).map hd
  | measurement m =>
    exact ((Measurement.Built.mapsDistances h).map hd).mono (fun _ he => he)
      fun _ hl => hl.type_eq

theorem Built.check (h : m.Built) {d bound : Value} (hd : d.type = m.inputMetric.distanceType)
    (hb : bound.type = m.boundType) : Maps (fun _ => True) (m.check d bound) := by
  cases m with
  | transformation t => exact (Transformation.Built.mapsDistances h).check hd hb
  | measurement m => exact (Measurement.Built.mapsDistances h).check hd hb

end Mechanism

end PrivateRelease
