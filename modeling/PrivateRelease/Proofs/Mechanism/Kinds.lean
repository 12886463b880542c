import PrivateRelease.Proofs.Mechanism.Closure
import PrivateRelease.Proofs.Mechanism.Functions

/-!
# Kinds of errors

A constructor fails as a constructor or because two things do not fit, whatever it is given. A built
mechanism that is invoked at a value of the type of its inputs fails as a function: every link of a
chain hands over a value of the type that the next one reads.
-/

namespace PrivateRelease

/-! ## Constructors -/

/-- The errors of constructors. -/
def Error.OfMaking (e : Error) : Prop :=
  e.kind = .makeTransformation ∨ e.kind = .makeMeasurement ∨ e.kind = .domainMismatch

/-- A constructor. -/
abbrev Makes {α : Type} : Except Error α → Prop := Yields Error.OfMaking fun _ => True

theorem Makes.step {α β : Type} {r : Except Error α} {k : α → Except Error β} (h : Makes r)
    (hk : ∀ x, Makes (k x)) : Makes (r >>= k) := h.bind fun x _ => hk x

namespace Error

theorem ofMaking_badTransformation (why : BadTransformation) :
    (badTransformation why).OfMaking := .inl rfl

theorem ofMaking_badMeasurement (why : BadMeasurement) :
    (badMeasurement why).OfMaking := .inr (.inl rfl)

theorem ofMaking_mismatch (what : Mismatch) : (mismatch what).OfMaking := .inr (.inr rfl)

end Error

open Error (ofMaking_badTransformation ofMaking_badMeasurement ofMaking_mismatch)

theorem makes_checkBoundary (first : Transformation) (d : Domain) (m : Metric) :
    Makes (checkBoundary first d m) := by
  unfold checkBoundary
  split
  · exact ofMaking_mismatch _
  · split
    · exact ofMaking_mismatch _
    · trivial

namespace Transformation

theorem makes_checkBounds (p : Primitive) (lower upper : p.Carrier) :
    Makes (checkBounds p lower upper) := by
  unfold checkBounds
  split
  · trivial
  · trivial
  · exact ofMaking_badTransformation _

theorem makes_between (p : Primitive) (lower upper : p.Carrier) : Makes (between p lower upper) := by
  unfold between
  split
  · trivial
  · exact ofMaking_badTransformation _

theorem makes_clamp (p : Primitive) (lower upper : p.Carrier) : Makes (clamp p lower upper) :=
  (makes_checkBounds p lower upper).step fun _ => (makes_between p lower upper).step fun _ => trivial

theorem makes_boundedSum (p : Precision) (lower upper : Binary p) :
    Makes (boundedSum p lower upper) :=
  (makes_checkBounds (.numeric (.float p)) lower upper).step fun _ =>
    (makes_between (.numeric (.float p)) lower upper).step fun _ => trivial

theorem makes_boundedMean (p : Precision) (lower upper : Binary p) (n : Nat)
    (inputMetric outputMetric : Metric) :
    Makes (boundedMean p lower upper n inputMetric outputMetric) := by
  refine (makes_checkBounds (.numeric (.float p)) lower upper).step fun _ => ?_
  by_cases hn : n = 0
  · simp only [hn, if_true]
    exact ofMaking_badTransformation _
  simp only [hn, if_false]
  cases inputMetric.oneRecord? with
  | none => exact ofMaking_badTransformation _
  | some oneRecord =>
    cases isSensitivity p outputMetric with
    | false => exact ofMaking_badTransformation _
    | true => exact (makes_between (.numeric (.float p)) lower upper).step fun _ => trivial

theorem makes_chain (second first : Transformation) : Makes (second.chain first) :=
  (makes_checkBoundary _ _ _).step fun _ => trivial

end Transformation

namespace Measurement

theorem makes_checkScale (scale : Binary .double) : Makes (checkScale scale) := by
  unfold checkScale
  split
  · trivial
  · exact ofMaking_badMeasurement _

theorem makes_checkAgree (first : Measurement) (index : Nat) (ms : List Measurement) :
    Makes (checkAgree first index ms) := by
  induction ms generalizing index with
  | nil => trivial
  | cons m ms ih =>
    unfold checkAgree
    split
    · exact ofMaking_mismatch _
    split
    · exact ofMaking_mismatch _
    split
    · exact ofMaking_mismatch _
    · exact ih _

theorem makes_supports (rule : CompositionRule) (m : Measure) : Makes (rule.supports m) := by
  unfold CompositionRule.supports
  split
  · trivial
  · trivial
  · exact ofMaking_badMeasurement _

theorem makes_ofDeltaPrime (deltaPrime : Binary .double) :
    Makes (CompositionRule.ofDeltaPrime deltaPrime) := by
  unfold CompositionRule.ofDeltaPrime
  split
  · trivial
  · exact ofMaking_badMeasurement _

theorem makes_chain (second : Measurement) (first : Transformation) : Makes (second.chain first) :=
  (makes_checkBoundary _ _ _).step fun _ => trivial

theorem makes_fixDelta (m : Measurement) (delta : Binary .double) : Makes (m.fixDelta delta) := by
  unfold fixDelta
  cases m.outputMeasure with
  | smoothedMaxDivergence p =>
    cases Curve.isProbability delta with
    | false => exact ofMaking_badMeasurement _
    | true => trivial
  | maxDivergence p => exact ofMaking_badMeasurement _
  | fixedSmoothedMaxDivergence p => exact ofMaking_badMeasurement _

variable [Elementary]

theorem makes_laplace {p : Precision} (scale : Binary p) : Makes (laplace p scale) :=
  (makes_checkScale _).step fun _ => trivial

theorem makes_gaussian {p : Precision} (scale : Binary p) : Makes (gaussian p scale) :=
  (makes_checkScale _).step fun _ => trivial

theorem makes_geometric (k : IntegerType) (scale : Binary .double) : Makes (geometric k scale) :=
  (makes_checkScale _).step fun _ => trivial

theorem makes_compose (rule : CompositionRule) (ms : List Measurement) : Makes (compose rule ms) := by
  cases ms with
  | nil => exact ofMaking_badMeasurement _
  | cons first rest =>
    exact (makes_checkAgree first 1 rest).step fun _ => (makes_supports rule _).step fun _ => trivial

theorem makes_amplify (m : Measurement) (population : Nat) : Makes (m.amplify population) := by
  unfold amplify
  cases m.inputDomain.sizedRecords? with
  | none => exact ofMaking_badMeasurement _
  | some domain =>
    obtain ⟨records, sample⟩ := domain
    by_cases hn : sample = 0 ∨ population < sample
    · simp only [hn, if_true]
      exact ofMaking_badMeasurement _
    simp only [hn, if_false]
    cases m.outputMeasure with
    | maxDivergence p =>
      cases m.inputMetric.oneRecord? with
      | none => exact ofMaking_badMeasurement _
      | some unit => trivial
    | smoothedMaxDivergence p => exact ofMaking_badMeasurement _
    | fixedSmoothedMaxDivergence p => exact ofMaking_badMeasurement _

end Measurement

/-! ## Functions -/

namespace Transformation

/-- Values of the type of the inputs are taken to values of the type of the outputs. -/
def IsTyped (t : Transformation) : Prop := ∀ v, v.type = t.inputDomain.carrier →
  ∃ w, t.function v = .ok w ∧ w.type = t.outputDomain.carrier

theorem carrier_between {p : Primitive} {lower upper : p.Carrier} {d : Domain}
    (h : between p lower upper = .ok d) : d.carrier = .primitive p := by
  cases p with
  | numeric q =>
    obtain ⟨_, rfl⟩ := between_eq_ok h
    rfl
  | bool => cases h
  | string => cases h

theorem carrier_vector_between {p : Primitive} {lower upper : p.Carrier} {d : Domain}
    (h : between p lower upper = .ok d) :
    (Domain.vector d).carrier = .vector (.primitive p) := by
  rw [Domain.carrier, carrier_between h]

theorem IsTyped.chain {second first t : Transformation} (hs : second.IsTyped) (hf : first.IsTyped)
    (h : Transformation.chain second first = .ok t) : t.IsTyped := by
  obtain ⟨meets, _, rfl⟩ := chain_eq_ok h
  intro v hv
  obtain ⟨w, hw, typed⟩ := hf v hv
  obtain ⟨x, hx, typed⟩ := hs w (typed.trans (Domain.carrier_eq_of_same meets))
  exact ⟨x, bind_eq_ok_iff.mpr ⟨w, hw, hx⟩, typed⟩

theorem Built.isTyped {t : Transformation} (h : t.Built) : t.IsTyped := by
  induction h with
  | identity p => exact fun v hv => ⟨v, rfl, hv⟩
  | clamp h =>
    obtain ⟨_, hb, rfl⟩ := clamp_eq_ok h
    intro v hv
    obtain ⟨xs, rfl⟩ := Value.type_eq_vector hv
    refine ⟨_, bind_eq_ok_iff.mpr ⟨xs, toVector_vector _ xs, rfl⟩, ?_⟩
    exact (carrier_vector_between hb).symm
  | boundedSum h =>
    obtain ⟨_, hb, rfl⟩ := boundedSum_eq_ok h
    intro v hv
    obtain ⟨xs, rfl⟩ := Value.type_eq_vector (hv.trans (carrier_vector_between hb))
    exact ⟨_, bind_eq_ok_iff.mpr ⟨xs, toVector_vector _ xs, rfl⟩, rfl⟩
  | boundedMean h =>
    obtain ⟨_, _, _, _, _, hb, rfl⟩ := boundedMean_eq_ok h
    intro v hv
    obtain ⟨xs, rfl⟩ := Value.type_eq_vector (hv.trans (carrier_vector_between hb))
    exact ⟨_, bind_eq_ok_iff.mpr ⟨xs, toVector_vector _ xs, rfl⟩, rfl⟩
  | count p =>
    intro v hv
    obtain ⟨xs, rfl⟩ := Value.type_eq_vector hv
    exact ⟨_, bind_eq_ok_iff.mpr ⟨_, if_pos rfl, rfl⟩, rfl⟩
  | chain _ _ h second first => exact second.chain first h

end Transformation

/-- The error of a function. -/
def Error.OfFunction (e : Error) : Prop := e.kind = .failedFunction

namespace Measurement

open Sampling (Gives)

/-- As for transformations, unless the noise is refused. -/
def IsTyped (m : Measurement) : Prop := ∀ v, v.type = m.inputDomain.carrier →
  Gives Error.OfFunction (fun w => w.type = m.outputDomain.carrier) (m.function v)

theorem IsTyped.chain {second m : Measurement} {first : Transformation} (hs : second.IsTyped)
    (hf : first.IsTyped) (h : Measurement.chain second first = .ok m) : m.IsTyped := by
  obtain ⟨meets, _, rfl⟩ := chain_eq_ok h
  intro v hv
  obtain ⟨w, hw, typed⟩ := hf v hv
  have handed : Gives Error.OfFunction (fun w => w.type = second.inputDomain.carrier)
      (Sampling.ofExcept (first.function v)) := by
    rw [hw]
    exact .pure (typed.trans (Domain.carrier_eq_of_same meets))
  exact handed.bind fun w hw => hs w hw

theorem gives_mapM_types {ms : List Measurement} {v : Value}
    (h : ∀ m ∈ ms, Gives Error.OfFunction (fun w => w.type = m.outputDomain.carrier)
      (m.function v)) :
    Gives Error.OfFunction
      (fun ws => Value.types ws = Domain.carriers (ms.map (·.outputDomain)))
      (ms.mapM fun m => m.function v) := by
  induction ms with
  | nil => exact .pure rfl
  | cons m ms ih =>
    obtain ⟨first, rest⟩ := List.forall_mem_cons.mp h
    rw [List.mapM_cons]
    refine first.bind fun w hw => (ih rest).bind fun ws hws => .pure ?_
    rw [List.map_cons, Domain.carriers, Value.types, hw, hws]

theorem toScalar_gives {q : Numeric} {v : Value} (hv : v.type = .numeric q) :
    Gives Error.OfFunction (fun _ => True) (Sampling.ofExcept (v.toScalar (.numeric q))) := by
  obtain ⟨x, rfl⟩ := Value.type_eq_numeric_iff.mp hv
  rw [Value.toScalar, Value.numeric, Value.scalar?_scalar]
  exact .pure trivial

theorem addNoise_gives {p : Precision} {noise : Sampling (Binary .double)}
    (h : Gives Error.OfFunction (fun _ => True) noise) {v : Value} (hv : v.type = .float p) :
    Gives Error.OfFunction (fun w => w.type = .float p) (addNoise p noise v) :=
  (toScalar_gives hv).bind fun _ _ => h.bind fun _ _ => .pure rfl

variable [Elementary]

theorem Built.isTyped {m : Measurement} (h : m.Built) : m.IsTyped := by
  induction h with
  | laplace h =>
    obtain ⟨_, rfl⟩ := laplace_eq_ok h
    exact fun v hv => addNoise_gives (Noise.laplace_gives rfl) hv
  | gaussian h =>
    obtain ⟨_, rfl⟩ := gaussian_eq_ok h
    exact fun v hv => addNoise_gives (Noise.gaussian_gives rfl) hv
  | @geometric k scale m h =>
    obtain ⟨_, rfl⟩ := geometric_eq_ok h
    intro v hv
    have noise : Gives Error.OfFunction (fun _ => True) (Noise.geometric scale) :=
      Noise.geometric_gives rfl
    exact (toScalar_gives hv).bind fun _ _ => noise.bind fun _ _ => .pure rfl
  | chain _ hf h second => exact second.chain hf.isTyped h
  | compose _ _ h parts =>
    obtain ⟨first, rest, rfl, agree, _, rfl⟩ := compose_eq_ok h
    intro v hv
    refine (gives_mapM_types fun part hp => parts part hp v ?_).bind fun ws hws => .pure ?_
    · rcases List.mem_cons.mp hp with rfl | hp
      · exact hv
      · exact hv.trans (Domain.carrier_eq_of_same (agree part hp).domain).symm
    · rw [Value.type, hws, Domain.carrier]
  | amplify _ h part =>
    obtain ⟨_, _, _, _, _, _, _, _, _, rfl⟩ := amplify_eq_ok h
    exact part
  | fixDelta _ h part =>
    obtain ⟨_, _, _, rfl⟩ := fixDelta_eq_ok h
    exact part

end Measurement

theorem checkMember_ofFunction (d : Domain) (v : Value) :
    Yields Error.OfFunction (fun _ => True) (checkMember d v) := by
  unfold checkMember
  split
  · trivial
  · exact rfl

/-- A value of the type of the inputs is invoked, or refused as a function does. -/
theorem Mechanism.Built.invoke_ofFunction [Elementary] {m : Mechanism} (h : m.Built) {v : Value}
    (hv : v.type = m.inputDomain.carrier) :
    Sampling.Gives Error.OfFunction (fun _ => True) (m.invoke v) := by
  cases m with
  | transformation t =>
    obtain ⟨w, hw, _⟩ := Transformation.Built.isTyped h v hv
    refine Sampling.gives_ofExcept ((checkMember_ofFunction t.inputDomain v).bind fun _ _ => ?_)
    rw [hw]
    trivial
  | measurement m =>
    refine (Sampling.gives_ofExcept (checkMember_ofFunction m.inputDomain v)).bind fun _ _ => ?_
    exact fun t => (Measurement.Built.isTyped h v hv t).mono (fun _ he => he) fun _ _ => trivial

end PrivateRelease
