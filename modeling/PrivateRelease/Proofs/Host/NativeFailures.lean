import PrivateRelease.Proofs.Host.Curves
import PrivateRelease.Proofs.Host.Workspaces
import PrivateRelease.Proofs.Mechanism.Kinds

/-!
# Failures of native calls

The host counts, types and marshals what it passes to an entry point, so the entry point never finds
fault with the call itself. What is left to fail is the library: a constructor, or a function at a
value outside its domain. Maps and mismatches fail as failures of the host's own kinds.
-/

namespace PrivateRelease

/-- Where losses are no curves, the map comes to something that has a host value. -/
theorem Mechanism.Built.map_plain [Elementary] {m : Mechanism} (h : m.Built)
    (hm : m.hasCurves = false) {d : Value} (hd : d.type = m.inputMetric.distanceType) :
    Maps Value.IsPlain (m.map d) := by
  cases m with
  | transformation t =>
    refine ((Transformation.Built.mapsDistances h).map hd).mono (fun _ he => he) fun l hl => ?_
    obtain ⟨x, rfl⟩ := Value.type_eq_numeric_iff.mp hl
    exact .scalar (.numeric t.outputMetric.distance) x
  | measurement m =>
    refine ((Measurement.Built.mapsDistances h).map hd).mono (fun _ he => he) fun l hl => ?_
    simp only [Mechanism.hasCurves] at hm
    generalize m.outputMeasure = measure at hl hm
    cases hl with
    | @number p x => exact .scalar (.numeric (.float p)) x
    | curve _ _ => cases hm
    | @pair p epsilon delta =>
      have floats : ∀ x : Binary p, (Value.float p x).IsPlain := .scalar (.numeric (.float p))
      exact .tuple (by simpa using ⟨floats epsilon, floats delta⟩)

namespace Host

open Boundary Stop

/-! ## Expected failures -/

namespace Failure

/-- Of what is reported as a failure of a native call, only functions and constructors fail. -/
def IsExpected (f : Failure) : Prop := ∀ code, f.code? = some code →
  code = Status.failedFunction.code ∨ code = Status.makeTransformation.code ∨
    code = Status.makeMeasurement.code

theorem IsOwn.isExpected {f : Failure} (h : f.IsOwn) : f.IsExpected := fun code hc => by
  rw [IsOwn, hc] at h
  cases h

theorem isExpected_ofCore {e : Error} (h : e.kind = .failedFunction ∨ e.kind = .failedMap ∨
    e.OfMaking) : (ofCore e).IsExpected := by
  unfold Error.OfMaking at h
  unfold ofCore
  rcases h with h | h | h | h | h <;> rw [h] <;> intro code hc <;> cases hc <;>
    simp [Status.ofKind]

end Failure

/-- Fails as expected, if at all. -/
abbrev Expects {α : Type} (P : α → Prop) : Except Failure α → Prop := Yields Failure.IsExpected P

section Expects

variable {α : Type} {r : Except Failure α}

theorem Hosted.expects (h : Hosted r) : Expects (fun _ => True) r :=
  h.mono (fun _ => Failure.IsOwn.isExpected) fun _ h => h

theorem expects_ofCore {β : Type} {E : Error → Prop} {P : β → Prop} {c : Except Error β}
    (h : Yields E P c)
    (he : ∀ e, E e → e.kind = .failedFunction ∨ e.kind = .failedMap ∨ e.OfMaking) :
    Expects P (c.mapError Failure.ofCore) := by
  cases c with
  | ok x => exact h
  | error e => exact Failure.isExpected_ofCore (he e h)

theorem expects_maps {β : Type} {P : β → Prop} {c : Except Error β} (h : Maps P c) :
    Expects P (c.mapError Failure.ofCore) :=
  expects_ofCore h fun _ he => .inr (.inl he.kind_eq)

end Expects

/-! ## Making -/

/-- Why a denotation comes to nothing: the host refuses, or a constructor fails. -/
def Stop.OfMaking : Stop → Prop
  | refused => True
  | failed why => why.OfMaking

/-- What denotes a mechanism unless it is refused or a constructor fails. -/
abbrev Denotes {α : Type} : Except Stop α → Prop := Yields Stop.OfMaking fun _ => True

section Denotes

variable {α β : Type}

theorem Denotes.step {r : Except Stop α} {k : α → Except Stop β} (h : Denotes r)
    (hk : ∀ x, Denotes (k x)) : Denotes (r >>= k) := h.bind fun x _ => hk x

theorem denotes_accept (r : Except Failure α) : Denotes (accept r) := by
  cases r <;> trivial

theorem denotes_require (b : Bool) : Denotes (require b) := by
  cases b <;> trivial

theorem denotes_some? (x : Option α) : Denotes (some? x) := by
  cases x <;> trivial

theorem denotes_core {r : Except Error α} (h : Makes r) : Denotes (core r) := by
  cases r with
  | ok x => trivial
  | error e => exact h

/-- An action that refines a denotation fails as expected. -/
theorem Refines.expects {a : Action α} {R : α → β → Prop} {d : Except Stop β} (h : Refines a R d)
    (hd : Denotes d) (l : Ledger) : Expects (fun x => ∃ y, R x y) (a l).1 := by
  have refined := h l.tape
  match d, hd, refined with
  | .ok y, _, ⟨x, hxy, ends⟩ =>
    rw [(ends l rfl).1]
    exact ⟨y, hxy⟩
  | .error (.failed why), hd, ends =>
    rw [(ends l rfl).1]
    exact Failure.isExpected_ofCore (.inr (.inr hd))
  | .error .refused, _, ⟨f, ends⟩ =>
    rw [(ends l rfl).1]
    exact f.2.isExpected

end Denotes

theorem denotes_chained (first second : Mechanism) : Denotes (chained first second) := by
  cases first with
  | measurement m => cases second <;> trivial
  | transformation f =>
    cases second with
    | transformation g =>
      refine (denotes_require _).step fun _ => (denotes_require _).step fun _ => ?_
      exact (denotes_core (Transformation.makes_chain g f)).step fun _ => trivial
    | measurement g =>
      refine (denotes_require _).step fun _ => (denotes_require _).step fun _ => ?_
      exact (denotes_core (Measurement.makes_chain g f)).step fun _ => trivial

theorem CompositionPolicy.makes_rule (policy : CompositionPolicy) : Makes policy.rule := by
  cases policy with
  | additive => trivial
  | advanced deltaPrime => exact Measurement.makes_ofDeltaPrime _

theorem denotes_fixed (m : Measurement) (delta : Binary .double) : Denotes (fixed m delta) := by
  unfold fixed
  cases m.outputMeasure with
  | smoothedMaxDivergence p =>
    exact (denotes_core (Measurement.makes_fixDelta m _)).step fun _ => trivial
  | _ => trivial

theorem makes_expectDescriptor (name : String) (given actual : Descriptor) :
    Makes (Entry.expectDescriptor name given actual) := by
  unfold Entry.expectDescriptor
  split
  · trivial
  · exact Error.ofMaking_mismatch _

variable [Elementary]

theorem Construction.denotes (features : Features) (hints : Hints) (c : Construction) :
    Denotes (c.denote features hints) := by
  cases c with
  | identity =>
    refine (denotes_accept _).step fun _ => (denotes_some? _).step fun _ => trivial
  | clamp lower upper =>
    refine (denotes_accept _).step fun _ => (denotes_some? _).step fun q => ?_
    refine (denotes_accept _).step fun a => (denotes_accept _).step fun b => ?_
    exact (denotes_core (Transformation.makes_clamp (.numeric q) a b)).step fun _ => trivial
  | boundedSum lower upper =>
    refine (denotes_accept _).step fun _ => (denotes_some? _).step fun p => ?_
    refine (denotes_require _).step fun _ => ?_
    refine (denotes_accept _).step fun a => (denotes_accept _).step fun b => ?_
    exact (denotes_core (Transformation.makes_boundedSum p a b)).step fun _ => trivial
  | boundedMean lower upper n =>
    refine (denotes_accept _).step fun _ => (denotes_accept _).step fun _ => ?_
    refine (denotes_accept _).step fun _ => (denotes_accept _).step fun _ => ?_
    refine (denotes_some? _).step fun (p, input, output) => (denotes_require _).step fun _ => ?_
    refine (denotes_accept _).step fun a => (denotes_accept _).step fun b => ?_
    exact (denotes_core (Transformation.makes_boundedMean p a b n input output)).step
      fun _ => trivial
  | count =>
    refine (denotes_accept _).step fun _ => (denotes_some? _).step fun _ => trivial
  | laplace scale =>
    refine (denotes_accept _).step fun _ => (denotes_some? _).step fun p => ?_
    refine (denotes_require _).step fun _ => (denotes_accept _).step fun x => ?_
    exact (denotes_core (Measurement.makes_laplace x)).step fun _ => trivial
  | gaussian scale =>
    refine (denotes_accept _).step fun _ => (denotes_some? _).step fun p => ?_
    refine (denotes_require _).step fun _ => (denotes_accept _).step fun x => ?_
    exact (denotes_core (Measurement.makes_gaussian x)).step fun _ => trivial
  | geometric scale =>
    refine (denotes_accept _).step fun _ => (denotes_some? _).step fun k => ?_
    exact (denotes_core (Measurement.makes_geometric k scale)).step fun _ => trivial

theorem denotes_composed (ms : List Measurement) (policy : CompositionPolicy) :
    Denotes (composed ms policy) := by
  refine (denotes_require _).step fun _ => (denotes_core policy.makes_rule).step fun rule => ?_
  exact (denotes_core (Measurement.makes_compose rule ms)).step fun _ => trivial

theorem makes_amplifiedAs (m : Measurement) (population : Nat) (records measure : Descriptor) :
    Makes (amplifiedAs m population records measure) := by
  unfold amplifiedAs
  cases m.inputDomain.sizedRecords? with
  | none => exact Error.ofMaking_badMeasurement _
  | some sized =>
    refine (makes_expectDescriptor _ _ _).step fun _ => (makes_expectDescriptor _ _ _).step fun _ => ?_
    exact Measurement.makes_amplify m population

theorem denotes_amplified (features : Features) (m : Measurement) (population : Nat)
    (records measure : TypeHint) : Denotes (amplified features m population records measure) := by
  refine (denotes_accept _).step fun _ => (denotes_accept _).step fun records => ?_
  refine (denotes_accept _).step fun measure => (denotes_some? _).step fun _ => ?_
  refine (denotes_require _).step fun _ => ?_
  exact (denotes_core (makes_amplifiedAs m population records measure)).step fun _ => trivial

/-! ## Operations -/

namespace Mechanism

omit [Elementary] in
theorem hosted_expectDistance (m : Mechanism) (d : Value) : Hosted (m.expectDistance d) := by
  unfold Mechanism.expectDistance
  split
  · rfl
  · trivial

end Mechanism

namespace Entity.Represents

variable {r : Role} {e : Entity r} {m : Mechanism}

theorem expects_invoke (h : e.Represents m) (v : Value) (l : Ledger) :
    Expects (fun _ => True) (e.invoke v l).1 := by
  rw [h.invoke_eq]
  cases hv : v.toNative m.inputDomain.carrier with
  | error f => exact ((Value.hosted_toNative _ v).isOwn hv).isExpected
  | ok o =>
    obtain ⟨typed, plain⟩ := Value.toNative_eq_ok hv
    have fails := h.built.invoke_ofFunction typed l.tape
    have released := h.built.invoke plain l.tape
    show Expects _ ((m.invoke o l.tape).mapError Failure.ofCore >>= fun drawn =>
      Value.ofNative drawn.1)
    match m.invoke o l.tape, fails, released with
    | .ok (x, t), _, released => exact (Value.hosted_ofNative released).expects
    | .error why, fails, _ => exact Failure.isExpected_ofCore (.inl fails)

theorem expects_map (h : e.Represents m) (d : Value) (l : Ledger) :
    Expects (fun _ => True) (e.map d l).1 := by
  cases hm : m.hasCurves with
  | false =>
    rw [h.map_eq_boundAt hm, h.boundAt_eq]
    refine (Mechanism.hosted_expectDistance m d).expects.bind fun _ _ => ?_
    cases hd : d.toNative m.inputMetric.distanceType with
    | error f => exact ((Value.hosted_toNative _ d).isOwn hd).isExpected
    | ok o =>
      refine (expects_maps (h.built.map_plain hm (Value.toNative_eq_ok hd).1)).bind fun x hx => ?_
      exact (Value.hosted_ofNative hx).expects
  | true =>
    cases r with
    | transformation =>
      obtain ⟨f, p, rfl, -⟩ := hasCurves_iff.mp hm
      cases h.role
    | measurement =>
      simp only [Entity.map, h.isCurveValued_eq, hm]
      exact Failure.IsOwn.isExpected rfl

theorem expects_check (h : e.Represents m) (d bound : Value) (l : Ledger) :
    Expects (fun _ => True) (e.check d bound l).1 := by
  rw [h.check_eq]
  refine (Mechanism.hosted_expectDistance m d).expects.bind fun _ _ => ?_
  cases hd : d.toNative m.inputMetric.distanceType with
  | error f => exact ((Value.hosted_toNative _ d).isOwn hd).isExpected
  | ok o =>
    cases hb : bound.toNative m.boundType with
    | error f => exact ((Value.hosted_toNative _ bound).isOwn hb).isExpected
    | ok o' =>
      exact expects_maps (h.built.check (Value.toNative_eq_ok hd).1 (Value.toNative_eq_ok hb).1)

theorem expects_mapCurve {e : Entity .measurement} (h : e.Represents m) (d : Value) (l : Ledger) :
    Expects (fun c => ∃ k, Curve.Represents c k) (e.mapCurve d l).1 := by
  cases hm : m.hasCurves with
  | false =>
    simp only [Entity.mapCurve, h.isCurveValued_eq, hm]
    exact Failure.IsOwn.isExpected rfl
  | true =>
    rw [(h.evaluates_mapCurve hm d l.tape l rfl).1]
    refine (Mechanism.hosted_expectDistance m d).expects.bind fun _ _ => ?_
    cases hd : d.toNative m.inputMetric.distanceType with
    | error f => exact ((Value.hosted_toNative _ d).isOwn hd).isExpected
    | ok o =>
      refine (expects_maps (h.built.map_curve hm (Value.toNative_eq_ok hd).1)).bind ?_
      rintro _ ⟨k, rfl, total⟩
      exact ⟨k, rfl, total⟩

end Entity.Represents

namespace Curve.Represents

variable {c : Curve} {k : PrivateRelease.Curve}

theorem expects_epsilon (h : c.Represents k) (delta : Binary .double) (l : Ledger) :
    Expects (fun _ => True) (c.epsilon delta l).1 := by
  rw [(h.evaluates_epsilon delta l.tape l rfl).1]
  exact expects_maps (h.total delta)

theorem expects_toText (h : c.Represents k) (l : Ledger) :
    Expects (fun _ => True) (c.toText l).1 := by
  rw [(h.evaluates_toText l.tape l rfl).1]
  trivial

end Curve.Represents

/-! ## Workspaces -/

/-- The entity represents a mechanism. -/
def AnyEntity.IsSound (e : AnyEntity) : Prop := ∃ m, e.Represents m

/-- The curve holds a total one. -/
def Curve.IsSound (c : Curve) : Prop := ∃ k, c.Represents k

namespace Workspace

/-- All entities represent mechanisms, and all curves are total. -/
structure Sound (w : Workspace) : Prop where
  entities : ∀ x ∈ w.entities, x.2.IsSound
  curves : ∀ x ∈ w.curves, x.2.IsSound

theorem sound_empty : empty.Sound := ⟨by simp [empty], by simp [empty]⟩

namespace Sound

variable {w : Workspace}

theorem entity (h : w.Sound) {name : String} {e : AnyEntity} (he : w.entity? name = some e) :
    e.IsSound := by
  obtain ⟨before, after, split, -⟩ := List.lookup_eq_some_iff.mp he
  exact h.entities (name, e) (by simp [split])

theorem curve (h : w.Sound) {name : String} {c : Curve} (hc : w.curve? name = some c) :
    c.IsSound := by
  obtain ⟨before, after, split, -⟩ := List.lookup_eq_some_iff.mp hc
  exact h.curves (name, c) (by simp [split])

theorem remove (h : w.Sound) (name : String) : (w.remove name).Sound :=
  ⟨fun x hx => h.entities x (List.mem_of_mem_filter hx), h.curves⟩

theorem put (h : w.Sound) (name : String) {e : AnyEntity} (he : e.IsSound) :
    (w.put name e).Sound :=
  ⟨List.forall_mem_cons.mpr ⟨he, (h.remove name).entities⟩, h.curves⟩

theorem removeCurve (h : w.Sound) (name : String) : (w.removeCurve name).Sound :=
  ⟨h.entities, fun x hx => h.curves x (List.mem_of_mem_filter hx)⟩

theorem putCurve (h : w.Sound) (name : String) {c : Curve} (hc : c.IsSound) :
    (w.putCurve name c).Sound :=
  ⟨h.entities, List.forall_mem_cons.mpr ⟨hc, (h.removeCurve name).curves⟩⟩

end Sound

end Workspace

theorem AnyEntity.IsSound.measurement {m : Entity .measurement}
    (h : (AnyEntity.measurement m).IsSound) : ∃ f, m.Represents (.measurement f) := by
  obtain ⟨f, hf⟩ := h
  cases f with
  | transformation _ => cases Entity.Represents.role hf
  | measurement f => exact ⟨f, hf⟩

namespace AnyEntity.IsSound

variable {e : AnyEntity}

theorem expects_invoke (h : e.IsSound) (v : Value) (l : Ledger) :
    Expects (fun _ => True) (e.invoke v l).1 := by
  obtain ⟨m, hm⟩ := h
  cases e <;> exact Entity.Represents.expects_invoke hm v l

theorem expects_map (h : e.IsSound) (d : Value) (l : Ledger) :
    Expects (fun _ => True) (e.map d l).1 := by
  obtain ⟨m, hm⟩ := h
  cases e <;> exact Entity.Represents.expects_map hm d l

theorem expects_check (h : e.IsSound) (d bound : Value) (l : Ledger) :
    Expects (fun _ => True) (e.check d bound l).1 := by
  obtain ⟨m, hm⟩ := h
  cases e <;> exact Entity.Represents.expects_check hm d bound l

end AnyEntity.IsSound

/-! ## Sessions -/

/-- A refusal by the workspace, or an expected failure. -/
def Refusal.IsOrderly : Refusal → Prop
  | failed f => f.IsExpected
  | noSuchName _ => True
  | wrongRole _ => True

/-- A session fails as expected and leaves a sound workspace. -/
structure Orderly {α : Type} (s : Id ((Except Refusal α × Workspace) × Ledger)) : Prop where
  outcome : Yields Refusal.IsOrderly (fun _ => True) s.1.1
  sound : s.1.2.Sound

namespace Session

variable {α : Type} {w : Workspace} {l : Ledger}

theorem act_orderly {a : Action α} (ha : Expects (fun _ => True) (a l).1) (h : w.Sound) :
    Orderly (act a w l) := by
  unfold act
  generalize a l = out at ha
  rcases out with ⟨e | x, l'⟩
  · exact ⟨ha, h⟩
  · exact ⟨trivial, h⟩

omit [Elementary] in
theorem expects_map {β : Type} {a : Action α} (f : α → β) {P : α → Prop}
    (ha : Expects P (a l).1) : Expects (fun _ => True) ((f <$> a) l).1 := by
  rw [run_map]
  generalize a l = out at ha
  rcases out with ⟨e | x, l'⟩
  · exact ha
  · trivial

theorem onEntity_orderly {name : String} {a : AnyEntity → Action α}
    (ha : ∀ e, e.IsSound → Expects (fun _ => True) (a e l).1) (h : w.Sound) :
    Orderly (onEntity name a w l) := by
  unfold onEntity
  split
  · next e he => exact act_orderly (ha e (h.entity he)) h
  · exact ⟨trivial, h⟩

theorem keep_orderly (name : String) {e : AnyEntity} (he : e.IsSound) (h : w.Sound) :
    Orderly (keep name e w l) := ⟨trivial, h.put name he⟩

theorem making_orderly {name : String} {a : Action AnyEntity}
    (ha : Expects AnyEntity.IsSound (a l).1) (h : w.Sound) : Orderly (making name a w l) := by
  unfold making
  generalize a l = out at ha
  rcases out with ⟨e | x, l'⟩
  · exact ⟨ha, h⟩
  · exact keep_orderly name ha h

/-- An operation that hands back what it was given, which is put back. -/
theorem consuming_orderly {ι : Type} {name : String} {c : Consuming ι AnyEntity}
    {putBack : ι → Workspace → Workspace} {inputs : ι} {children : List Handle}
    (hc : Consumes c inputs children AnyEntity.handle)
    (ha : Expects AnyEntity.IsSound (c.toAction l).1) (hw : w.Sound)
    (hp : (putBack inputs w).Sound) : Orderly (consuming name c putBack w l) := by
  have hr := hc l
  unfold Consuming.toAction at ha
  unfold consuming
  generalize c l = out at ha hr
  rcases out with ⟨e | x, l'⟩
  · obtain ⟨rfl, -⟩ := hr
    exact ⟨ha, hp⟩
  · exact keep_orderly name ha hw

/-! ## Taking measurements -/

theorem takeMeasurement_yields (h : w.Sound) (name : String) :
    Yields Refusal.IsOrderly (fun x => (∃ f, x.1.Represents (.measurement f)) ∧ x.2.Sound)
      (takeMeasurement name w) := by
  unfold takeMeasurement
  split
  · next m he => exact ⟨(h.entity he).measurement, h.remove name⟩
  · trivial
  · trivial

theorem takeMeasurements_yields (h : w.Sound) (names : List String) :
    Yields Refusal.IsOrderly (fun x => (∃ fs, Represented x.1 fs) ∧ x.2.Sound)
      (takeMeasurements names w) := by
  induction names generalizing w with
  | nil => exact ⟨⟨[], .nil⟩, h⟩
  | cons name names ih =>
    refine (takeMeasurement_yields h name).bind fun (m, w) ⟨⟨f, hf⟩, hw⟩ => ?_
    refine (ih hw).bind fun (ms, w) ⟨⟨fs, hfs⟩, hw⟩ => ?_
    exact ⟨⟨f :: fs, .cons hf hfs⟩, hw⟩

theorem putMeasurements_sound {ms : List (Entity .measurement)} {fs : List Measurement}
    (hm : Represented ms fs) (names : List String) (h : w.Sound) :
    (putMeasurements names ms w).Sound := by
  induction hm generalizing names w with
  | nil => cases names <;> exact h
  | cons he _ ih =>
    cases names with
    | nil => exact h
    | cons name names => exact ih names (h.put name ⟨_, he⟩)

end Session

/-! ## Commands -/

namespace Command

open Session

variable {w : Workspace} {ledger : Ledger}

theorem runChain_orderly (l : Library) (name first second : String) (h : w.Sound) :
    Orderly (runChain l name first second w ledger) := by
  unfold runChain
  split
  · next e f he hf =>
    split
    · exact ⟨trivial, h⟩
    have se := h.entity he
    have sf := h.entity hf
    obtain ⟨m, hm⟩ := se
    obtain ⟨g, hg⟩ := sf
    have rest := (h.remove first).remove second
    exact consuming_orderly (l.consumes_chain e f)
      ((chain_refines hm hg).expects (denotes_chained m g) ledger) rest
      ((rest.put first ⟨m, hm⟩).put second ⟨g, hg⟩)
  · exact ⟨trivial, h⟩
  · exact ⟨trivial, h⟩

/-- What makes a measurement makes a sound entity. -/
theorem expects_measurement {ι : Type} {c : Consuming ι (Entity .measurement)}
    {d : Except Stop Mechanism} (h : Refines c.toAction Entity.Represents d) (hd : Denotes d) :
    Expects AnyEntity.IsSound ((AnyEntity.measurement <$> c).toAction ledger).1 := by
  rw [Consuming.toAction_map]
  have wrapped : Refines (AnyEntity.measurement <$> c.toAction) AnyEntity.Represents d :=
    h.map fun _ _ h => h
  exact wrapped.expects hd ledger

theorem runCompose_orderly (l : Library) (name : String) (parts : List String)
    (policy : CompositionPolicy) (h : w.Sound) :
    Orderly (runCompose l name parts policy w ledger) := by
  have taken := takeMeasurements_yields h parts
  unfold runCompose
  split
  · next ms w' ht =>
    rw [ht] at taken
    obtain ⟨⟨fs, hfs⟩, hw⟩ := taken
    exact consuming_orderly ((l.consumes_compose ms policy).map _ fun _ => rfl)
      (expects_measurement (compose_refines hfs policy) (denotes_composed fs policy)) hw
      (putMeasurements_sound hfs parts hw)
  · next r ht =>
    rw [ht] at taken
    exact ⟨taken, h⟩

theorem runOn_orderly (name on : String)
    {c : Entity .measurement → Consuming (Entity .measurement) (Entity .measurement)}
    {d : Measurement → Except Stop Mechanism}
    (hc : ∀ m, Consumes (c m) m [m.handle] Entity.handle)
    (hr : ∀ m f, m.Represents (.measurement f) → Refines (c m).toAction Entity.Represents (d f))
    (hd : ∀ f, Denotes (d f)) (h : w.Sound) : Orderly (runOn name on c w ledger) := by
  have taken := takeMeasurement_yields h on
  unfold runOn
  split
  · next m w' ht =>
    rw [ht] at taken
    obtain ⟨⟨f, hf⟩, hw⟩ := taken
    exact consuming_orderly ((hc m).map _ fun _ => rfl) (expects_measurement (hr m f hf) (hd f)) hw
      (hw.put on ⟨_, hf⟩)
  · next r ht =>
    rw [ht] at taken
    exact ⟨taken, h⟩

theorem runMapCurve_orderly (name on : String) (d : Value) (h : w.Sound) :
    Orderly (runMapCurve name on d w ledger) := by
  unfold runMapCurve
  split
  · next m he =>
    obtain ⟨f, hf⟩ := (h.entity he).measurement
    have mapped := hf.expects_mapCurve d ledger
    simp only
    rcases hrun : m.mapCurve d ledger with ⟨e | c, l'⟩
    · rw [hrun] at mapped
      rw [run_bind_error hrun]
      exact ⟨mapped, h⟩
    · rw [hrun] at mapped
      obtain ⟨k, hk⟩ := mapped
      have text := evaluates_orElseRun (hk.evaluates_toText l'.tape) (keepsTape_drop c.handle)
      have ended := (text l' rfl).1
      rw [run_bind_ok hrun]
      rcases htext : c.toText.orElseRun c.handle.drop l' with ⟨e | s, l''⟩
      · rw [htext] at ended
        cases ended
      · rw [run_bind_ok htext]
        exact ⟨trivial, h.putCurve name ⟨k, hk⟩⟩
  · exact ⟨trivial, h⟩
  · exact ⟨trivial, h⟩

theorem runEpsilon_orderly (on : String) (delta : Binary .double) (h : w.Sound) :
    Orderly (runEpsilon on delta w ledger) := by
  unfold runEpsilon
  split
  · next c hc =>
    obtain ⟨k, hk⟩ := h.curve hc
    exact act_orderly (expects_map _ (hk.expects_epsilon delta ledger)) h
  · exact ⟨trivial, h⟩

theorem runCurveText_orderly (on : String) (h : w.Sound) :
    Orderly (runCurveText on w ledger) := by
  unfold runCurveText
  split
  · next c hc =>
    obtain ⟨k, hk⟩ := h.curve hc
    exact act_orderly (expects_map _ (hk.expects_toText ledger)) h
  · exact ⟨trivial, h⟩

theorem runDropCurve_orderly (on : String) (h : w.Sound) :
    Orderly (runDropCurve on w ledger) := by
  unfold runDropCurve
  split
  · exact ⟨trivial, h.removeCurve on⟩
  · exact ⟨trivial, h⟩

theorem runRelease_orderly (on : String) (h : w.Sound) : Orderly (runRelease on w ledger) := by
  unfold runRelease
  split
  · next e _ =>
    refine act_orderly (expects_map (P := fun _ => True) _ ?_) (h.remove on)
    rw [Handle.release_eq]
    trivial
  · exact ⟨trivial, h⟩

theorem runDrop_orderly (on : String) (h : w.Sound) : Orderly (runDrop on w ledger) := by
  unfold runDrop
  split
  · exact ⟨trivial, h.remove on⟩
  · exact ⟨trivial, h⟩

theorem runInto_orderly {r : Role} (on : String) {c : AnyEntity → Except Failure (Entity r)}
    (hc : ∀ e, Hosted (c e)) (h : w.Sound) : Orderly (runInto on c w ledger) := by
  unfold runInto
  split
  · next e _ =>
    split
    · exact ⟨trivial, h⟩
    · next why hw => exact ⟨((hc e).isOwn hw).isExpected, h.remove on⟩
  · exact ⟨trivial, h⟩

/-- Every command on a sound workspace fails as expected, if at all, and leaves a sound one. -/
theorem run_orderly (l : Library) (c : Command) (h : w.Sound) : Orderly (c.run l w ledger) := by
  cases c with
  | make name c hints =>
    exact making_orderly ((c.run_refines l hints).expects (c.denotes l.features hints) ledger) h
  | chain name first second => exact runChain_orderly l name first second h
  | compose name parts policy => exact runCompose_orderly l name parts policy h
  | amplify name on population records measure =>
    exact runOn_orderly name on (fun m => l.consumes_amplify m population records measure)
      (fun m f hf => amplify_refines hf population records measure)
      (fun f => denotes_amplified l.features f population records measure) h
  | fixDelta name on delta =>
    exact runOn_orderly name on (fun m => l.consumes_fixDelta m delta)
      (fun m f hf => fixDelta_refines hf delta) (fun f => denotes_fixed f delta) h
  | describe on => exact onEntity_orderly (fun e _ => trivial) h
  | invoke on v =>
    exact onEntity_orderly (fun e he => expects_map _ (he.expects_invoke v ledger)) h
  | map on d => exact onEntity_orderly (fun e he => expects_map _ (he.expects_map d ledger)) h
  | check on dIn dOut =>
    exact onEntity_orderly (fun e he => expects_map _ (he.expects_check dIn dOut ledger)) h
  | mapCurve name on d => exact runMapCurve_orderly name on d h
  | epsilon on delta => exact runEpsilon_orderly on delta h
  | curveText on => exact runCurveText_orderly on h
  | dropCurve on => exact runDropCurve_orderly on h
  | tree on => exact onEntity_orderly (fun e _ => trivial) h
  | release on => exact runRelease_orderly on h
  | drop on => exact runDrop_orderly on h
  | toTransformation on => exact runInto_orderly on AnyEntity.hosted_toTransformation h
  | toMeasurement on => exact runInto_orderly on AnyEntity.hosted_toMeasurement h

end Command

/-! ## Runs -/

namespace Workspace

theorem run_sound (commands : List (Library × Command)) {w : Workspace} (h : w.Sound)
    (l : Ledger) : (run commands w l).1.Sound := by
  induction commands generalizing w l with
  | nil => exact h
  | cons step rest ih =>
    obtain ⟨library, c⟩ := step
    exact ih (c.run_orderly library h).sound _

/-- After any commands, a command that fails with the failure of a native call fails in a function or
in a constructor of the library: no entry point finds fault with how it is called. -/
theorem native_failure_codes (commands : List (Library × Command)) (library : Library)
    (command : Command) (l : Ledger) (code : Int) (message : String)
    (h : (command.run library (run commands empty l).1 (run commands empty l).2).1.1 =
      .error (.failed (.native code message))) :
    code = Status.failedFunction.code ∨ code = Status.makeTransformation.code ∨
      code = Status.makeMeasurement.code := by
  have ends : Orderly (command.run library (run commands empty l).1 (run commands empty l).2) :=
    command.run_orderly library (run_sound commands sound_empty l)
  have outcome := ends.outcome
  rw [h] at outcome
  exact outcome code rfl

omit [Elementary] in
/-- Bounds in the wrong order are refused by the constructor. -/
theorem native_failure_codes_disordered_bounds :
    letI := Elementary.machine
    ∃ code message, (Command.run ⟨.none⟩ (.make "clamped"
      (.clamp (.int (.clamp .i64 1)) (.int (.clamp .i64 0))) []) empty (.start (.seeded 0))).1.1 =
        .error (.failed (.native code message)) ∧
      (code = Status.failedFunction.code ∨ code = Status.makeTransformation.code ∨
        code = Status.makeMeasurement.code) := by
  let _ := Elementary.machine
  let disordered : Construction := .clamp (.int (.clamp .i64 1)) (.int (.clamp .i64 0))
  let why : Error := .badTransformation
    (.bounds (.numeric (.integer .i32)) (.clamp .i32 1) (.clamp .i32 0))
  have denoted : disordered.denote .none [] = .error (.failed why) := rfl
  have refined := disordered.run_refines ⟨.none⟩ [] (.seeded 0)
  rw [denoted] at refined
  have ended := (refined (.start (.seeded 0)) rfl).1
  have failed : (Command.run ⟨.none⟩ (.make "clamped" disordered []) empty
      (.start (.seeded 0))).1.1 = .error (.failed (.ofCore why)) := by
    show (Session.making "clamped" (disordered.run ⟨.none⟩ []) empty (.start (.seeded 0))).1.1 = _
    unfold Session.making
    generalize disordered.run ⟨.none⟩ [] (.start (.seeded 0)) = out at ended
    obtain ⟨r, l⟩ := out
    cases ended
    rfl
  exact ⟨_, _, failed, native_failure_codes [] _ _ _ _ _ failed⟩

end Workspace

end Host

end PrivateRelease
