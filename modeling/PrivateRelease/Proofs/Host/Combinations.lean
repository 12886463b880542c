import Mathlib.Data.List.Forall2
import PrivateRelease.Proofs.Host.Kernels

/-!
# Combinations

Chains and combinators refine the constructors of the library on the mechanisms that the inputs
represent: what runs last is passed first, composed measurements keep their order, and the texts that
the host compares are those that the mechanisms print.
-/

namespace PrivateRelease.Host

open Boundary Stop

/-! ## Consuming operations -/

namespace Consuming

variable {ι κ α β : Type}

theorem toAction_ofAction (inputs : ι) (a : Action α) : (ofAction inputs a).toAction = a := by
  funext l
  unfold toAction ofAction
  rcases a l with ⟨e | x, l'⟩ <;> rfl

theorem toAction_mapInputs (f : ι → κ) (c : Consuming ι α) :
    (c.mapInputs f).toAction = c.toAction := by
  funext l
  unfold toAction mapInputs
  rcases c l with ⟨r | x, l'⟩ <;> rfl

theorem toAction_map (f : α → β) (c : Consuming ι α) : (f <$> c).toAction = f <$> c.toAction := by
  funext l
  simp only [toAction, Functor.map, ExceptT.map, ExceptT.mk, bind, StateT.bind]
  rcases c l with ⟨r | x, l'⟩ <;> rfl

end Consuming

namespace Stop

theorem core_bind {α β : Type} (r : Except Error α) (f : α → Except Error β) :
    core (r >>= f) = core r >>= fun x => core (f x) := by
  cases r <;> rfl

end Stop

variable [Elementary]

/-- Owning what it was made from does not change what an entity stands for. -/
theorem Entity.Represents.adopt {r : Role} {e : Entity r} {m : Mechanism} (h : e.Represents m)
    (children : List Handle) : (e.adopt children).Represents m :=
  ⟨h.role, h.built, h.holding, h.descriptors, h.nonnegativeInput⟩

theorem Library.makeFrom_refines {l : Library} {r : Role} {s : Signature} {b : Bindings}
    {args : List Argument} {d : Except Stop Mechanism} (children : List Handle)
    (h : Refines (l.make r s b args) Entity.Represents d) :
    Refines (l.makeFrom r s b args children) Entity.Represents d := by
  have adopted := h.map (f := fun e => e.adopt children) fun e m (he : e.Represents m) =>
    he.adopt children
  rwa [map_eq_pure_bind] at adopted

/-! ## Chains -/

omit [Elementary] in
theorem accept_expectBoundary (f g : Mechanism) :
    accept (expectBoundary f.descriptors g.descriptors) = (do
      require (f.outputDomain.toText = g.inputDomain.toText)
      require (f.outputDistance = g.inputMetric.toText)) := by
  show accept (if f.outputDomain.toText ≠ g.inputDomain.toText then _
    else if f.outputDistance ≠ g.inputMetric.toText then _ else _) = _
  by_cases hd : f.outputDomain.toText = g.inputDomain.toText
  case neg => simp [hd]; rfl
  by_cases hm : f.outputDistance = g.inputMetric.toText
  · simp [hd, hm]; rfl
  · simp [hd, hm]; rfl

/-- The entry point gets the second entity, then the first. -/
theorem chainInto_refines {l : Library} {r : Role} {s : Signature} {name : String} {entry : Entry}
    {τ : Type} {w : τ → Mechanism} {c : Except Error τ} {first : Entity .transformation}
    {second : Entity r} {f g : Mechanism} (hf : first.Represents f) (hg : second.Represents g)
    (hs : s = .plain "core" name Parameter.chained r.outcome)
    (hl : Export.lookup (s.symbol []) = some entry)
    (hc : Yields Error.WellFormed (fun _ => True) c)
    (built : ∀ y, c = .ok y → (w y).Built ∧ (w y).role = r)
    (body : ∀ t, Evaluates (entry.body (.text (Descriptor.argsText []))
      (.ofList [payloadOf g, payloadOf f])) t (c.mapError .failed >>= fun y =>
        .ok (payloadOf (w y))) t) :
    Refines (l.chainInto s first second) Entity.Represents (do
      require (f.outputDomain.toText = g.inputDomain.toText)
      require (f.outputDistance = g.inputMetric.toText)
      return w (← core c)) := by
  subst hs
  have prepared : (Signature.plain "core" name Parameter.chained r.outcome).prepared l.features []
      [.handle second.handle, .handle first.handle] = ((.ok () : Except Failure Unit) >>= fun _ =>
        .ok ([], (Frame.empty.withPayload (payloadOf g)).withPayload (payloadOf f))) := by
    rw [Signature.prepared_eq rfl rfl rfl, ← hf.payload, ← hg.payload]
    rfl
  have made := Library.make_refines (l := l) (r := r) (x := .ok ()) (c := fun _ => c) (w := w)
    (by simp [Bindings.WellFormed]) rfl hl prepared (fun _ => hc) (fun _ => built) fun _ => body
  have chained := refines_accept (hosted_expectBoundary first.descriptors second.descriptors)
    fun _ _ => Library.makeFrom_refines [second.handle, first.handle] made
  rw [hf.descriptors, hg.descriptors, accept_expectBoundary, bind_assoc] at chained
  unfold Library.chainInto
  rw [hf.descriptors, hg.descriptors]
  exact chained

theorem chainTransformations_refines {l : Library} {first second : Entity .transformation}
    {f g : Transformation} (hf : first.Represents (.transformation f))
    (hg : second.Represents (.transformation g)) :
    Refines (l.chainInto .chainTransformations first second) Entity.Represents
      (chained (.transformation f) (.transformation g)) := by
  have bf : f.Built := hf.built
  have bg : g.Built := hg.built
  have lookup : Export.lookup (Signature.chainTransformations.symbol []) =
      some .chainTransformations :=
    Signature.lookup_plain (by simp [Signature.chainTransformations, Signature.plain, Export.plain])
  refine chainInto_refines (w := .transformation) (c := g.chain f) hf hg rfl lookup ?_
    (fun y h => ⟨.chain bg bf h, rfl⟩) fun t => ?_
  · refine (Transformation.checkBoundary_yields bf.describable.output bg.describable.input).bind ?_
    exact fun _ _ => trivial
  refine (Call.evaluates_ok rfl t).bind_ok ((Call.evaluates_ok rfl t).bind_ok ?_)
  refine (Call.evaluates_ok rfl t).bind_ok ?_
  exact Call.evaluates_made _ _ t

theorem chainMeasurement_refines {l : Library} {first : Entity .transformation}
    {second : Entity .measurement} {f : Transformation} {g : Measurement}
    (hf : first.Represents (.transformation f)) (hg : second.Represents (.measurement g)) :
    Refines (l.chainInto .chainMeasurement first second) Entity.Represents
      (chained (.transformation f) (.measurement g)) := by
  have bf : f.Built := hf.built
  have bg : g.Built := hg.built
  have lookup : Export.lookup (Signature.chainMeasurement.symbol []) = some .chainMeasurement :=
    Signature.lookup_plain (by simp [Signature.chainMeasurement, Signature.plain, Export.plain])
  refine chainInto_refines (w := .measurement) (c := g.chain f) hf hg rfl lookup ?_
    (fun y h => ⟨.chain bg bf h, rfl⟩) fun t => ?_
  · refine (Transformation.checkBoundary_yields bf.describable.output bg.describable.input).bind ?_
    exact fun _ _ => trivial
  refine (Call.evaluates_ok rfl t).bind_ok ((Call.evaluates_ok rfl t).bind_ok ?_)
  refine (Call.evaluates_ok rfl t).bind_ok ?_
  exact Call.evaluates_made _ _ t

theorem chain_refines {l : Library} {first second : AnyEntity} {f g : Mechanism}
    (hf : first.Represents f) (hg : second.Represents g) :
    Refines (l.chain first second).toAction AnyEntity.Represents (chained f g) := by
  cases first with
  | measurement e =>
    cases f with
    | transformation _ => cases Entity.Represents.role hf
    | measurement f =>
      unfold Library.chain
      rw [Consuming.toAction_ofAction]
      exact refines_refused (f := .mismatch (.afterMeasurement e.descriptors.outputDistance)) rfl
        fun t => .throw _ t
  | transformation d =>
    cases f with
    | measurement _ => cases Entity.Represents.role hf
    | transformation f =>
      cases second with
      | transformation e =>
        cases g with
        | measurement _ => cases Entity.Represents.role hg
        | transformation g =>
          show Refines (Consuming.toAction (AnyEntity.transformation <$>
            (l.chainTransformations d e).mapInputs _)) _ _
          rw [Consuming.toAction_map, Consuming.toAction_mapInputs, Library.chainTransformations,
            Consuming.toAction_ofAction]
          exact (chainTransformations_refines hf hg).map fun _ _ h => h
      | measurement e =>
        cases g with
        | transformation _ => cases Entity.Represents.role hg
        | measurement g =>
          show Refines (Consuming.toAction (AnyEntity.measurement <$>
            (l.chainMeasurement d e).mapInputs _)) _ _
          rw [Consuming.toAction_map, Consuming.toAction_mapInputs, Library.chainMeasurement,
            Consuming.toAction_ofAction]
          exact (chainMeasurement_refines hf hg).map fun _ _ h => h

/-! ## Composition -/

/-- The entities represent the measurements, in order. -/
abbrev Represented (es : List (Entity .measurement)) (ms : List Measurement) : Prop :=
  List.Forall₂ (fun e m => e.Represents (.measurement m)) es ms

omit [Elementary] in
theorem require_bind (x y : Bool) : (require x >>= fun _ => require y) = require (x && y) := by
  cases x <;> rfl

omit [Elementary] in
theorem accept_expectSame (what first other : String) :
    accept (expectSame what first other) = require (first = other) := by
  unfold expectSame
  by_cases h : first = other <;> simp [h] <;> rfl

theorem accept_forM {es : List (Entity .measurement)} {ms : List Measurement}
    (h : Represented es ms) {a : Entity .measurement → Except Failure Unit}
    {b : Measurement → Bool}
    (hab : ∀ e m, e.Represents (.measurement m) → accept (a e) = require (b m)) :
    accept (es.forM a) = require (ms.all b) := by
  induction h with
  | nil => rfl
  | cons he _ ih =>
    rw [List.forM_eq_forM, List.forM_cons, accept_bind, hab _ _ he, ← List.forM_eq_forM, ih,
      require_bind, List.all_cons]

/-- The host compares every measurement with the first, by what is printed. -/
theorem accept_expectCompatible {es : List (Entity .measurement)} {ms : List Measurement}
    (h : Represented es ms) : accept (expectCompatible es) = require (agree ms) := by
  cases h with
  | nil => rfl
  | cons hf hs =>
    rename_i first f es ms
    refine accept_forM hs fun e m he => ?_
    have compared : accept (do
        expectSame "input domain" first.descriptors.inputDomain e.descriptors.inputDomain
        expectSame "input metric" first.descriptors.inputMetric e.descriptors.inputMetric
        expectSame "output measure" first.descriptors.outputDistance e.descriptors.outputDistance) =
          require (decide (first.descriptors.inputDomain = e.descriptors.inputDomain) &&
            (decide (first.descriptors.inputMetric = e.descriptors.inputMetric) &&
              decide (first.descriptors.outputDistance = e.descriptors.outputDistance))) := by
      simp only [accept_bind, accept_expectSame, require_bind]
    rw [compared, hf.descriptors, he.descriptors, ← Bool.decide_and, ← Bool.decide_and]
    rfl

/-- The slice of handles is read as the measurements. -/
theorem measurements_handles {es : List (Entity .measurement)} {ms : List Measurement}
    (h : Represented es ms) :
    Entry.measurements (.references ((es.map Entity.handle).map Frame.handleReference)) =
      .ok ms := by
  have references : (es.map Entity.handle).map Frame.handleReference =
      ms.map fun m => some (Reference.measurement m) := by
    induction h with
    | nil => rfl
    | cons he _ ih =>
      rw [List.map_cons, List.map_cons, List.map_cons, ih, Frame.handleReference, he.holding]
      rfl
  generalize hr : (ms.map fun m => some (Reference.measurement m)) = rs at references
  have items : (Memory.references rs).itemsOf "measurements" (some rs) = .ok rs :=
    Memory.itemsOf_some rfl rfl _
  rw [references]
  unfold Entry.measurements
  simp only [Memory.references?, items]
  subst hr
  simp only [bind, Except.bind]
  exact mapM_map_eq_ok (g := fun m => some (Reference.measurement m)) (fun _ => rfl) ms

omit [Elementary] in
/-- The number of the rule and its parameter are read as the rule. -/
theorem compositionRule_selector (policy : CompositionPolicy) : ∃ n : Nat,
    policy.selector.1.val = n ∧ n < 2 ^ 63 ∧
      Entry.compositionRule n (.reference (.slot (.numeric (.float .double))
        (Binary.convert policy.selector.2))) = policy.rule.mapError .failed := by
  cases policy with
  | additive => exact ⟨0, rfl, by decide, rfl⟩
  | advanced deltaPrime =>
    refine ⟨1, rfl, by decide, ?_⟩
    show (do
      let d ← (Payload.reference (.slot (.numeric (.float .double)) _)).toSlot
        (.numeric (.float .double)) "delta_prime"
      (CompositionRule.ofDeltaPrime d).mapError CallError.failed) = _
    rw [Payload.toSlot_number (q := .float .double)]
    rfl

omit [Elementary] in
theorem CompositionPolicy.rule_yields (policy : CompositionPolicy) :
    Yields Error.WellFormed CompositionRule.IsProper policy.rule := by
  cases policy with
  | additive => trivial
  | advanced deltaPrime => exact Measurement.ofDeltaPrime_yields _

/-- The frame of a composition. -/
def composing (es : List (Entity .measurement)) (n : Nat) (x : Binary .double) : Frame :=
  ((Frame.empty.withPayload (.reference (.slice (.references
    ((es.map Entity.handle).map Frame.handleReference))))).withPayload (.integer n)).withPayload
      (.reference (.slot (.numeric (.float .double)) x))

omit [Elementary] in
theorem prepared_compose {features : Features} (es : List (Entity .measurement))
    {rule : Bounded .i64} {n : Nat} (hm : rule.val = n) (hn : n < 2 ^ 63) (x : Binary .double) :
    Signature.compose.prepared features []
      [.handles (es.map Entity.handle), .value (.int rule), .value (.float x)] =
        .ok ([], composing es n (Binary.convert x)) := by
  have shape : template "f64" [] = .ok (.float .double) :=
    template_primitive (.numeric (.float .double)) _
  have list : Frame.empty.pushed [] ⟨"measurements", "", .handles⟩
      (.handles (es.map Entity.handle)) = .ok (Frame.empty.withPayload (.reference (.slice
        (.references ((es.map Entity.handle).map Frame.handleReference))))) := rfl
  rw [Signature.prepared_eq rfl rfl rfl]
  simp only [Signature.compose, Signature.plain, List.zip_cons_cons, List.zip_nil_left,
    Frame.pushedAll, list, Frame.pushed_size (p := ⟨"rule", "u64", .byValue⟩) rfl rfl hm hn,
    Frame.pushed_byReference (p := ⟨"rule_param", "f64", .byReference⟩) rfl shape]
  rfl

theorem Represented.built {es : List (Entity .measurement)} {ms : List Measurement}
    (h : Represented es ms) : ∀ m ∈ ms, m.Built := by
  induction h with
  | nil => simp
  | cons he _ ih => simpa using ⟨he.built, ih⟩

theorem compose_refines {l : Library} {es : List (Entity .measurement)} {ms : List Measurement}
    (h : Represented es ms) (policy : CompositionPolicy) :
    Refines (l.compose es policy).toAction Entity.Represents (composed ms policy) := by
  obtain ⟨n, hm, hn, selected⟩ := compositionRule_selector policy
  have rule := policy.rule_yields
  have prepared : Signature.compose.prepared l.features [] [.handles (es.map Entity.handle),
      .value (.int policy.selector.1), .value (.float policy.selector.2)] =
        ((.ok () : Except Failure Unit) >>= fun _ =>
          .ok ([], composing es n (Binary.convert policy.selector.2))) :=
    prepared_compose es hm hn _
  have lookup : Export.lookup (Signature.compose.symbol []) = some .compose :=
    Signature.lookup_plain (by simp [Signature.compose, Signature.plain, Export.plain])
  have made := Library.make_refines (r := .measurement) (w := .measurement)
    (c := fun _ => policy.rule >>= fun rule => Measurement.compose rule ms)
    (by simp [Bindings.WellFormed]) rfl lookup prepared
    (fun _ => rule.bind fun _ _ => Measurement.compose_yields fun m hm =>
      (h.built m hm).describable.input) ?_ fun _ t => ?_
  · unfold Library.compose
    rw [Consuming.toAction_ofAction]
    have all := refines_accept (hosted_expectCompatible es) fun _ _ =>
      Library.makeFrom_refines (es.map Entity.handle) made
    rw [accept_expectCompatible h] at all
    simp only [core_bind, bind_assoc] at all
    exact all
  · intro _ m hc
    obtain ⟨chosen, hr, hc⟩ := bind_eq_ok_iff.mp hc
    rw [hr] at rule
    exact ⟨.compose rule h.built hc, rfl⟩
  · refine (Call.evaluates_ok rfl t).bind_ok ?_
    refine (Call.evaluates_ok (measurements_handles h) t).bind_ok ?_
    show Evaluates (do
      let rule ← Call.ofExcept (Entry.compositionRule (Payload.integer n).toUnsigned
        (.reference (.slot (.numeric (.float .double)) (Binary.convert policy.selector.2))))
      Call.give (.measurement (← Call.ofCore (Measurement.compose rule ms)))) t _ t
    rw [Payload.toUnsigned_integer (by omega), selected]
    cases policy.rule with
    | error why => exact (Call.evaluates_error rfl t).bind_error
    | ok rule =>
      refine (Call.evaluates_ok rfl t).bind_ok ?_
      exact Call.evaluates_made _ _ t

/-! ## Amplification -/

omit [Elementary] in
theorem wellFormed_sizedRecords {d records : Domain} {n : Nat} (hd : d.WellFormed)
    (h : d.sizedRecords? = some (records, n)) : records.WellFormed := by
  cases hd with
  | sized hi =>
    cases hi with
    | vector hr =>
      simp only [Domain.sizedRecords?, Option.some.injEq, Prod.mk.injEq] at h
      exact h.1 ▸ hr
    | _ => simp [Domain.sizedRecords?] at h
  | _ => simp [Domain.sizedRecords?] at h

omit [Elementary] in
theorem expectDescriptor_yields {name : String} (hn : Text.NulFree name) {d e : Descriptor}
    (hd : d.WellFormed) (he : e.WellFormed) :
    Yields Error.WellFormed (fun _ => True) (Entry.expectDescriptor name d e) := by
  unfold Entry.expectDescriptor
  split
  · trivial
  · exact ⟨hn, hd, he⟩

theorem amplifiedAs_yields {m : Measurement} (hm : m.inputDomain.WellFormed) (n : Nat)
    {records measure : Descriptor} (hr : records.WellFormed) (hs : measure.WellFormed) :
    Yields Error.WellFormed (fun _ => True) (amplifiedAs m n records measure) := by
  unfold amplifiedAs
  cases hd : m.inputDomain.sizedRecords? with
  | none => exact hm
  | some sized =>
    obtain ⟨domain, size⟩ := sized
    have domain := (wellFormed_sizedRecords hm hd).descriptor
    refine (expectDescriptor_yields (by decide) hr domain).bind fun _ _ => ?_
    refine (expectDescriptor_yields (by decide) hs m.outputMeasure.wellFormed).bind fun _ _ => ?_
    exact Measurement.amplify_yields hm n

theorem amplifiedAs_eq_ok {m y : Measurement} {n : Nat} {records measure : Descriptor}
    (h : amplifiedAs m n records measure = .ok y) : m.amplify n = .ok y := by
  unfold amplifiedAs at h
  split at h
  · obtain ⟨_, _, h⟩ := bind_eq_ok_iff.mp h
    obtain ⟨_, _, h⟩ := bind_eq_ok_iff.mp h
    exact h
  · cases h

/-- The entry point checks the types, then amplifies. -/
theorem body_amplify (m : Measurement) {n : Nat} (hn : n < 2 ^ 63) {records measure : Descriptor}
    (types : ∀ d ∈ [records, measure], d.WellFormed) (t : Tape) :
    Evaluates (Entry.amplify.body (.text (Descriptor.argsText [records, measure]))
      (.ofList [payloadOf (.measurement m), .integer n])) t
      ((amplifiedAs m n records measure).mapError .failed >>= fun y =>
        .ok (payloadOf (.measurement y))) t := by
  refine (Call.evaluates_ok (Blob.types_argsText types) t).bind_ok ?_
  refine (Call.evaluates_ok rfl t).bind_ok ((Call.evaluates_ok rfl t).bind_ok ?_)
  have unsigned := Payload.toUnsigned_integer (n := n) (by omega)
  unfold amplifiedAs
  cases hd : m.inputDomain.sizedRecords? with
  | none => exact .throw _ t
  | some sized =>
    obtain ⟨domain, size⟩ := sized
    simp only [unsigned, mapError_bind, bind_assoc]
    refine (Call.evaluates_ofCore _ t).bind fun _ _ => ?_
    refine (Call.evaluates_ofCore _ t).bind fun _ _ => ?_
    exact Call.evaluates_made _ _ t

theorem amplify_refines {l : Library} {e : Entity .measurement} {m : Measurement}
    (h : e.Represents (.measurement m)) (population : Nat) (records measure : TypeHint) :
    Refines (l.amplify e population records measure).toAction Entity.Represents
      (amplified l.features m population records measure) := by
  unfold Library.amplify
  rw [Consuming.toAction_ofAction]
  refine refines_accept (Library.hosted_size _ population) fun k hk => ?_
  refine refines_accept records.hosted_toDescriptor fun records hr => ?_
  refine refines_accept measure.hosted_toDescriptor fun measure hs => ?_
  obtain ⟨hk, hn⟩ := size_eq_ok hk
  have wr := TypeHint.wellFormed_toDescriptor hr
  have ws := TypeHint.wellFormed_toDescriptor hs
  have hb : Bindings.WellFormed [("DIA", records), ("MO", measure)] := by
    simpa [Bindings.WellFormed] using ⟨wr, ws⟩
  have types : ∀ d ∈ [records, measure], d.WellFormed := by simpa using ⟨wr, ws⟩
  refine Library.makeFrom_refines [e.handle] ?_
  refine Library.make_chooses hb rfl (lookup_amplify wr ws) fun _ _ hl => ?_
  refine Library.make_guarded hb rfl fun hf => ?_
  have prepared : Signature.amplify.prepared l.features [("DIA", records), ("MO", measure)]
      [.handle e.handle, .value (.int k)] = ((.ok () : Except Failure Unit) >>= fun _ =>
        .ok ([records, measure], (Frame.empty.withPayload (payloadOf (.measurement m))).withPayload
          (.integer population))) := by
    rw [Signature.prepared_eq hf rfl rfl, ← h.payload]
    simp only [Signature.amplify, Signature.kernel, List.zip_cons_cons, List.zip_nil_left,
      Frame.pushedAll, Frame.pushed_handle (p := .entity) rfl,
      Frame.pushed_size (p := ⟨"population_size", "u64", .byValue⟩) rfl rfl hk hn]
    rfl
  have bm : m.Built := h.built
  exact Library.make_refines (r := .measurement) (w := .measurement) (x := .ok ())
    (c := fun _ => amplifiedAs m population records measure) hb rfl hl prepared
    (fun _ => amplifiedAs_yields bm.describable.input population wr ws)
    (fun _ y hy => ⟨.amplify bm (amplifiedAs_eq_ok hy), rfl⟩)
    fun _ => body_amplify m hn types

/-! ## Fixed deltas -/

omit [Elementary] in
theorem isCurveValued_iff {d : Descriptors} {m : Measure} (h : d.outputDistance = m.toText) :
    d.isCurveValued = true ↔ ∃ p, m = .smoothedMaxDivergence p := by
  unfold Descriptors.isCurveValued
  rw [h]
  have printed : ∀ p, Descriptors.smoothed.toList.isPrefixOf (Measure.maxDivergence p).toText.toList
        = false ∧
      Descriptors.smoothed.toList.isPrefixOf (Measure.smoothedMaxDivergence p).toText.toList
        = true ∧
      Descriptors.smoothed.toList.isPrefixOf (Measure.fixedSmoothedMaxDivergence p).toText.toList
        = false := by
    intro p
    cases p <;> decide
  cases m with
  | maxDivergence p => simp [(printed p).1]
  | smoothedMaxDivergence p => simp [(printed p).2.1]
  | fixedSmoothedMaxDivergence p => simp [(printed p).2.2]

omit [Elementary] in
/-- The measure of curves and its carrier are read from the printed measure. -/
theorem curveMeasure_eq_ok {e : Entity .measurement} {p : Precision}
    (h : e.descriptors.outputDistance = (Measure.smoothedMaxDivergence p).toText) :
    curveMeasure e = .ok ((Measure.smoothedMaxDivergence p).descriptor, .float p) := by
  have valued := (isCurveValued_iff h).mpr ⟨p, rfl⟩
  have parsed : Descriptor.parse (Measure.smoothedMaxDivergence p).toText =
      .ok (Measure.smoothedMaxDivergence p).descriptor :=
    Descriptor.parse_toText (Measure.smoothedMaxDivergence p).wellFormed
  simp only [curveMeasure, valued, h, parsed]
  rfl

omit [Elementary] in
theorem curveMeasure_error {e : Entity .measurement} {m : Measure}
    (h : e.descriptors.outputDistance = m.toText) (hm : ∀ p, m ≠ .smoothedMaxDivergence p) :
    ∃ f, curveMeasure e = .error f := by
  have valued : e.descriptors.isCurveValued = false := by
    rw [Bool.eq_false_iff]
    exact fun hv => ((isCurveValued_iff h).mp hv).elim hm
  unfold curveMeasure
  rw [valued]
  exact ⟨_, rfl⟩

theorem body_fixDelta {m : Measurement} {p : Precision}
    (hm : m.outputMeasure = .smoothedMaxDivergence p) (delta : Binary p) (t : Tape) :
    Evaluates ((Entry.fixDelta p).body (.text (Descriptor.argsText
        [(Measure.smoothedMaxDivergence p).descriptor]))
      (.ofList [payloadOf (.measurement m), .reference (.slot (.numeric (.float p)) delta)])) t
      ((m.fixDelta (Binary.convert delta)).mapError .failed >>= fun y =>
        .ok (payloadOf (.measurement y))) t := by
  have types : ∀ d ∈ [(Measure.smoothedMaxDivergence p).descriptor], d.WellFormed := by
    simp [Measure.wellFormed]
  have same : Entry.expectDescriptor "MO" (Measure.smoothedMaxDivergence p).descriptor
      m.outputMeasure.descriptor = .ok () := by
    simp [Entry.expectDescriptor, hm]
  refine (Call.evaluates_ok (Blob.types_argsText types) t).bind_ok ?_
  refine (Call.evaluates_ok rfl t).bind_ok ((Call.evaluates_ok rfl t).bind_ok ?_)
  refine (Call.evaluates_core_ok same t).bind_ok ?_
  refine (Call.evaluates_ok (Payload.toSlot_number (q := .float p) delta "delta") t).bind_ok ?_
  exact Call.evaluates_made _ _ t

/-- The measurement at a delta, once its measure is read. -/
theorem make_fixed {l : Library} {e : Entity .measurement} {m : Measurement}
    (h : e.Represents (.measurement m)) {p : Precision}
    (hm : m.outputMeasure = .smoothedMaxDivergence p) (delta : Binary .double) :
    Refines (l.make .measurement .fixDelta
      [("MO", (Measure.smoothedMaxDivergence p).descriptor), ("T", .float p)]
      [.handle e.handle, .value (.float delta)]) Entity.Represents (do
        let x : Binary p := Binary.convert delta
        return .measurement (← core (m.fixDelta (Binary.convert x)))) := by
  have bm : m.Built := h.built
  have hb : Bindings.WellFormed [("MO", (Measure.smoothedMaxDivergence p).descriptor),
      ("T", .float p)] := by
    have carrier : (Descriptor.float p).WellFormed := .primitive _
    simpa [Bindings.WellFormed] using ⟨(Measure.smoothedMaxDivergence p).wellFormed, carrier⟩
  have prepared : Signature.fixDelta.prepared l.features
      [("MO", (Measure.smoothedMaxDivergence p).descriptor), ("T", .float p)]
      [.handle e.handle, .value (.float delta)] = ((.ok () : Except Failure Unit) >>= fun _ =>
        .ok ([(Measure.smoothedMaxDivergence p).descriptor],
          (Frame.empty.withPayload (payloadOf (.measurement m))).withPayload
            (.reference (.slot (.numeric (.float p)) (Binary.convert delta))))) := by
    rw [Signature.prepared_eq rfl rfl rfl, ← h.payload]
    have number := fun f => Frame.pushed_number (f := f) (p := ⟨"delta", "T", .byReference⟩)
      (b := [("MO", (Measure.smoothedMaxDivergence p).descriptor), ("T", .float p)])
      (q := .float p) rfl rfl rfl (.float delta)
    simp only [Signature.fixDelta, Signature.kernel, List.zip_cons_cons, List.zip_nil_left,
      Frame.pushedAll, Frame.pushed_handle (p := .entity) rfl, number]
    rfl
  exact Library.make_refines (r := .measurement) (w := .measurement)
    (c := fun _ => m.fixDelta (Binary.convert (Binary.convert delta : Binary p))) hb rfl
    (lookup_fixDelta p) prepared (fun _ => Measurement.fixDelta_yields m _)
    (fun _ y hy => ⟨.fixDelta bm hy, rfl⟩) fun _ => body_fixDelta hm _

omit [Elementary] in
theorem ofExcept_ok_bind {α β : Type} (x : α) (f : α → Action β) :
    Action.ofExcept (.ok x) >>= f = f x := rfl

theorem fixDelta_refines {l : Library} {e : Entity .measurement} {m : Measurement}
    (h : e.Represents (.measurement m)) (delta : Binary .double) :
    Refines (l.fixDelta e delta).toAction Entity.Represents (fixed m delta) := by
  have text : e.descriptors.outputDistance = m.outputMeasure.toText := by
    rw [h.descriptors]
    rfl
  unfold Library.fixDelta
  rw [Consuming.toAction_ofAction]
  by_cases hm : ∃ p, m.outputMeasure = .smoothedMaxDivergence p
  · obtain ⟨p, hm⟩ := hm
    have denoted : fixed m delta = (do
        let x : Binary p := Binary.convert delta
        return .measurement (← core (m.fixDelta (Binary.convert x)))) := by
      unfold fixed
      rw [hm]
    rw [curveMeasure_eq_ok (hm ▸ text), denoted, ofExcept_ok_bind]
    exact Library.makeFrom_refines [e.handle] (make_fixed h hm delta)
  · have refused : fixed m delta = .error .refused := by
      unfold fixed
      cases ho : m.outputMeasure with
      | smoothedMaxDivergence p => exact absurd ⟨p, ho⟩ hm
      | _ => rfl
    obtain ⟨f, hf⟩ := curveMeasure_error text fun p hp => hm ⟨p, hp⟩
    rw [refused]
    exact refines_refused ((hosted_curveMeasure e).isOwn hf) fun t =>
      (evaluates_error hf t).bind_error

end PrivateRelease.Host
