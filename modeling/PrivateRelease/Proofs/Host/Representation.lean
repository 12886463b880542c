import PrivateRelease.Host.Entity
import PrivateRelease.Proofs.Host.Preparation

/-!
# Entities and the mechanisms they stand for

An entity represents a built mechanism when its handle holds it and its descriptors are the texts
that the mechanism prints. Then each operation on the entity is the operation on the mechanism,
between the conversion of the arguments and the conversion of the result.
-/

namespace PrivateRelease

namespace Mechanism

open Host (Role Holding Descriptors)

def role : Mechanism → Role
  | transformation _ => .transformation
  | measurement _ => .measurement

def holding : Mechanism → Holding
  | transformation t => .transformation t
  | measurement m => .measurement m

/-- The answer to a question about the mechanism. -/
def field (f : Boundary.EntityField) : Mechanism → String
  | transformation t => f.ofTransformation t
  | measurement m => f.ofMeasurement m

/-- Everything the host keeps of the mechanism. -/
def descriptors (m : Mechanism) : Descriptors where
  inputDomain := m.inputDomain.toText
  outputDomain := m.outputDomain.toText
  inputMetric := m.inputMetric.toText
  outputDistance := m.outputDistance
  inputCarrier := m.inputDomain.carrier
  inputDistance := m.inputMetric.distanceType
  outputBound := m.boundType

/-- Whether input distances are counts, or unsigned. -/
def countsInput (m : Mechanism) : Bool :=
  m.inputMetric.isDataset || m.inputMetric.distance == .integer .u32
    || m.inputMetric.distance == .integer .u64

/-- The host's own check of an input distance. -/
def expectDistance (m : Mechanism) (d : Host.Value) : Except Host.Failure Unit :=
  if m.countsInput && Host.isNegative d then
    .error (.outOfDomain (.negative m.inputMetric.toText d))
  else .ok ()

/-- The host itself refuses distances of integer types only. -/
theorem expectDistance_of_float {m : Mechanism} {p : Precision}
    (h : m.inputMetric.distance = .float p) (d : Host.Value) : m.expectDistance d = .ok () := by
  have counts : m.countsInput = false := by
    unfold countsInput
    cases metric : m.inputMetric <;> simp_all [Metric.distance, Metric.isDataset]
  rw [expectDistance, counts]
  rfl

theorem Built.nulFree_field [Elementary] {m : Mechanism} (h : m.Built) (f : Boundary.EntityField) :
    Text.NulFree (m.field f) := by
  cases m with
  | transformation t =>
    cases f with
    | inputDomain => exact h.input.nulFree
    | outputDomain => exact h.output.nulFree
    | inputMetric => exact t.inputMetric.nulFree_toText
    | outputDistance => exact t.outputMetric.nulFree_toText
    | inputCarrier => exact h.input.carrier.nulFree
    | inputDistanceType => exact t.inputMetric.wellFormed_distanceType.nulFree
    | outputBoundType => exact t.outputMetric.wellFormed_distanceType.nulFree
  | measurement m =>
    cases f with
    | inputDomain => exact h.input.nulFree
    | outputDomain => exact h.output.nulFree
    | inputMetric => exact m.inputMetric.nulFree_toText
    | outputDistance => exact m.outputMeasure.nulFree_toText
    | inputCarrier => exact h.input.carrier.nulFree
    | inputDistanceType => exact m.inputMetric.wellFormed_distanceType.nulFree
    | outputBoundType => exact m.outputMeasure.wellFormed_boundType.nulFree

end Mechanism

namespace Host

open Boundary

/-! ## Entry points of entities -/

/-- An operation without types has the entry point of its row. -/
theorem Signature.lookup_plain {s : Signature} {entry : Entry}
    (h : ⟨s.module, s.name, [], entry⟩ ∈ Export.plain) :
    Export.lookup (s.symbol []) = some entry := by
  rw [Signature.symbol, ite_self]
  exact Export.lookup_plain _ h

namespace Role

def describeEntry : Role → Entry
  | transformation => .transformationDescribe
  | measurement => .measurementDescribe

def invokeEntry : Role → Entry
  | transformation => .transformationInvoke
  | measurement => .measurementInvoke

def mapEntry : Role → Entry
  | transformation => .transformationMap
  | measurement => .measurementMap

def checkEntry : Role → Entry
  | transformation => .transformationCheck
  | measurement => .measurementCheck

theorem lookup_describe (r : Role) : Export.lookup (r.describe.symbol []) = some r.describeEntry := by
  refine Signature.lookup_plain ?_
  cases r <;> simp [describe, describeEntry, Signature.transformationDescribe,
    Signature.measurementDescribe, Signature.plain, Export.plain]

theorem lookup_invoke (r : Role) : Export.lookup (r.invoke.symbol []) = some r.invokeEntry := by
  refine Signature.lookup_plain ?_
  cases r <;> simp [invoke, invokeEntry, Signature.transformationInvoke,
    Signature.measurementInvoke, Signature.plain, Export.plain]

theorem lookup_map (r : Role) : Export.lookup (r.map.symbol []) = some r.mapEntry := by
  refine Signature.lookup_plain ?_
  cases r <;> simp [map, mapEntry, Signature.transformationMap, Signature.measurementMap,
    Signature.plain, Export.plain]

theorem lookup_check (r : Role) : Export.lookup (r.check.symbol []) = some r.checkEntry := by
  refine Signature.lookup_plain ?_
  cases r <;> simp [check, checkEntry, Signature.transformationCheck, Signature.measurementCheck,
    Signature.plain, Export.plain]

end Role

variable [Elementary]

/-- The payload of a handle on the mechanism. -/
def payloadOf (m : Mechanism) : Payload := .reference m.holding.reference

section Bodies

variable {blob : Blob} {t : Tape}

theorem body_describe {m : Mechanism} (h : m.Built) (f : EntityField) :
    Evaluates (m.role.describeEntry.body blob (.ofList [payloadOf m, .integer f.number])) t
      (.ok (.reference (.text (m.field f)))) t := by
  have number : EntityField.ofNumber (Payload.integer f.number).toUnsigned = .ok f := by
    cases f <;> rfl
  have text := h.nulFree_field f
  cases m with
  | transformation _ =>
    refine (Call.evaluates_ok rfl t).bind_ok ((Call.evaluates_ok rfl t).bind_ok ?_)
    exact (Call.evaluates_core_ok number t).bind_ok (Call.evaluates_giveText text t)
  | measurement _ =>
    refine (Call.evaluates_ok rfl t).bind_ok ((Call.evaluates_ok rfl t).bind_ok ?_)
    exact (Call.evaluates_core_ok number t).bind_ok (Call.evaluates_giveText text t)

theorem body_invoke {m : Mechanism} {v w : PrivateRelease.Value} {t' : Tape}
    (h : m.invoke v t = .ok (w, t')) :
    Evaluates (m.role.invokeEntry.body blob (.ofList [payloadOf m, .reference (.object v)])) t
      (.ok (.reference (.object w))) t' := by
  cases m with
  | transformation f =>
    have hf : f.invoke v = .ok w ∧ t = t' := by
      unfold Mechanism.invoke Sampling.ofExcept at h
      cases hv : f.invoke v with
      | error e => simp [hv, Except.map] at h
      | ok x => simpa [hv, Except.map] using h
    obtain ⟨hf, rfl⟩ := hf
    refine (Call.evaluates_ok rfl t).bind_ok ((Call.evaluates_ok rfl t).bind_ok ?_)
    refine (Call.evaluates_ok rfl t).bind_ok ((Call.evaluates_core_ok hf t).bind_ok ?_)
    exact Call.evaluates_give _ t
  | measurement f =>
    refine (Call.evaluates_ok rfl t).bind_ok ((Call.evaluates_ok rfl t).bind_ok ?_)
    refine (Call.evaluates_ok rfl t).bind_ok ((Call.evaluates_sample_ok h).bind_ok ?_)
    exact Call.evaluates_give _ t'

theorem body_invoke_error {m : Mechanism} {v : PrivateRelease.Value} {e : Error}
    (h : m.invoke v t = .error e) :
    Evaluates (m.role.invokeEntry.body blob (.ofList [payloadOf m, .reference (.object v)])) t
      (.error (.failed e)) t := by
  cases m with
  | transformation f =>
    have hf : f.invoke v = .error e := by
      unfold Mechanism.invoke Sampling.ofExcept at h
      cases hv : f.invoke v with
      | error e' => simpa [hv, Except.map] using h
      | ok x => simp [hv, Except.map] at h
    refine (Call.evaluates_ok rfl t).bind_ok ((Call.evaluates_ok rfl t).bind_ok ?_)
    exact (Call.evaluates_ok rfl t).bind_ok (Call.evaluates_core_error hf t).bind_error
  | measurement f =>
    refine (Call.evaluates_ok rfl t).bind_ok ((Call.evaluates_ok rfl t).bind_ok ?_)
    exact (Call.evaluates_ok rfl t).bind_ok (Call.evaluates_sample_error h).bind_error

theorem body_map (blob : Blob) (t : Tape) (m : Mechanism) (d : PrivateRelease.Value) :
    Evaluates (m.role.mapEntry.body blob (.ofList [payloadOf m, .reference (.object d)])) t
      ((m.map d).mapError .failed >>= fun l => .ok (.reference (.object l))) t := by
  cases m with
  | transformation f =>
    refine (Call.evaluates_ok rfl t).bind_ok ((Call.evaluates_ok rfl t).bind_ok ?_)
    exact (Call.evaluates_ok rfl t).bind_ok (Call.evaluates_made _ _ t)
  | measurement f =>
    refine (Call.evaluates_ok rfl t).bind_ok ((Call.evaluates_ok rfl t).bind_ok ?_)
    exact (Call.evaluates_ok rfl t).bind_ok (Call.evaluates_made _ _ t)

theorem body_check (blob : Blob) (t : Tape) (m : Mechanism) (d bound : PrivateRelease.Value) :
    Evaluates (m.role.checkEntry.body blob
        (.ofList [payloadOf m, .reference (.object d), .reference (.object bound)])) t
      ((m.check d bound).mapError .failed >>= fun b => .ok (.bool b)) t := by
  cases m with
  | transformation f =>
    refine (Call.evaluates_ok rfl t).bind_ok ((Call.evaluates_ok rfl t).bind_ok ?_)
    refine (Call.evaluates_ok rfl t).bind_ok ((Call.evaluates_ok rfl t).bind_ok ?_)
    exact (Call.evaluates_ofCore _ t).bind fun b _ => .pure _ t
  | measurement f =>
    refine (Call.evaluates_ok rfl t).bind_ok ((Call.evaluates_ok rfl t).bind_ok ?_)
    refine (Call.evaluates_ok rfl t).bind_ok ((Call.evaluates_ok rfl t).bind_ok ?_)
    exact (Call.evaluates_ofCore _ t).bind fun b _ => .pure _ t

end Bodies

/-! ## Prepared operations -/

section Prepared

omit [Elementary]

variable {b : Bindings} {d e : Descriptor} (r : Role) (h : Handle)

theorem template_argument (hb : b.lookup "TI" = some d) :
    template Parameter.argument.shape b = .ok d :=
  template_named (by decide) hb

theorem template_inputDistance (hb : b.lookup "QI" = some d) :
    template Parameter.inputDistance.shape b = .ok d :=
  template_named (by decide) hb

theorem template_outputBound (hb : b.lookup "QO" = some d) :
    template Parameter.outputBound.shape b = .ok d :=
  template_named (by decide) hb

theorem prepared_describe (f : EntityField) :
    r.describe.prepared .none [] [.handle h, .value (.int (.clamp .i64 f.number))] =
      .ok ([], (Frame.empty.withPayload h.payload).withPayload (.integer f.number)) := by
  have shape : template Parameter.field.shape [] = .ok (.integer .u64) :=
    template_primitive (.numeric (.integer .u64)) []
  have word : (Value.int (.clamp .i64 f.number)).toWord (.integer .u64) =
      .ok (.integer f.number) := by
    cases f <;> rfl
  have parameters : r.describe.parameters = [.entity, .field] := by cases r <;> rfl
  have types : r.describe.types [] = .ok [] := by cases r <;> rfl
  rw [Signature.prepared_eq (by cases r <;> rfl) (by cases r <;> rfl) types, parameters]
  simp only [List.zip_cons_cons, List.zip_nil_left, Frame.pushedAll,
    Frame.pushed_handle (p := .entity) rfl, Frame.pushed_byValue (p := .field) rfl shape, word]
  rfl

/-- What takes an entity and one object gets both, if the object can be made. -/
theorem prepared_object {s : Signature} {p : Parameter} (hp : s.parameters = [.entity, p])
    (passing : p.passing = .object) (shape : template p.shape b = .ok d)
    (hf : Features.none.require s.features s.qualifiedName = .ok ()) (ht : s.types b = .ok [])
    (v : Value) : s.prepared .none b [.handle h, .value v] = (v.toNative d >>= fun o =>
      .ok ([], (Frame.empty.withPayload h.payload).withTemporary (.ofObject o))) := by
  rw [Signature.prepared_eq hf (by rw [hp]; rfl) ht, hp]
  simp only [List.zip_cons_cons, List.zip_nil_left, Frame.pushedAll,
    Frame.pushed_handle (p := .entity) rfl, Frame.pushed_object passing shape]
  cases v.toNative d <;> rfl

theorem prepared_invoke (hb : b.lookup "TI" = some d) (v : Value) :
    r.invoke.prepared .none b [.handle h, .value v] = (v.toNative d >>= fun o =>
      .ok ([], (Frame.empty.withPayload h.payload).withTemporary (.ofObject o))) := by
  have parameters : r.invoke.parameters = [.entity, .argument] := by cases r <;> rfl
  have types : r.invoke.types b = .ok [] := by cases r <;> rfl
  exact prepared_object h parameters rfl (template_argument hb) (by cases r <;> rfl) types v

theorem prepared_map (hb : b.lookup "QI" = some d) (v : Value) :
    r.map.prepared .none b [.handle h, .value v] = (v.toNative d >>= fun o =>
      .ok ([], (Frame.empty.withPayload h.payload).withTemporary (.ofObject o))) := by
  have parameters : r.map.parameters = [.entity, .inputDistance] := by cases r <;> rfl
  have types : r.map.types b = .ok [] := by cases r <;> rfl
  exact prepared_object h parameters rfl (template_inputDistance hb) (by cases r <;> rfl) types v

theorem prepared_check (hd : b.lookup "QI" = some d) (he : b.lookup "QO" = some e) (v w : Value) :
    r.check.prepared .none b [.handle h, .value v, .value w] = (v.toNative d >>= fun o =>
      w.toNative e >>= fun o' => .ok ([], ((Frame.empty.withPayload h.payload).withTemporary
        (.ofObject o)).withTemporary (.ofObject o'))) := by
  have parameters : r.check.parameters = [.entity, .inputDistance, .outputBound] := by
    cases r <;> rfl
  have types : r.check.types b = .ok [] := by cases r <;> rfl
  rw [Signature.prepared_eq (by cases r <;> rfl) (by cases r <;> rfl) types, parameters]
  simp only [List.zip_cons_cons, List.zip_nil_left, Frame.pushedAll,
    Frame.pushed_handle (p := .entity) rfl,
    Frame.pushed_object (p := .inputDistance) rfl (template_inputDistance hd),
    Frame.pushed_object (p := .outputBound) rfl (template_outputBound he)]
  cases v.toNative d with
  | error _ => rfl
  | ok o => cases w.toNative e <;> rfl

end Prepared

/-! ## Reading descriptors -/

namespace Entity

/-- The entity holds the mechanism and knows it by the texts that it prints. -/
structure Represents {r : Role} (e : Entity r) (m : Mechanism) : Prop where
  role : m.role = r
  built : m.Built
  holding : e.handle.holding = m.holding
  descriptors : e.descriptors = m.descriptors
  nonnegativeInput : e.nonnegativeInput = m.countsInput

theorem evaluates_describe {m : Mechanism} (hm : m.Built) {h : Handle} (hh : h.holding = m.holding)
    (f : EntityField) (t : Tape) : Evaluates (describe m.role h f) t (.ok (m.field f)) t := by
  have payload : h.payload = payloadOf m := by rw [Handle.payload, hh, payloadOf]
  have read : Evaluates (Returned.ofPayload (.reference (.text (m.field f))) m.role.describe.returns)
      t (.ok (.value (.text (m.field f)))) t := by
    have announced : m.role.describe.returns = .text := by cases m <;> rfl
    rw [announced]
    exact (evaluates_takeText _ t).bind_ok (.pure _ t)
  have call := Signature.evaluates_call (show Bindings.WellFormed [] by simp [Bindings.WellFormed])
    (prepared_describe m.role h f) m.role.lookup_describe (payload ▸ body_describe hm f) read
  exact call.bind_ok (evaluates_ok rfl t)

theorem evaluates_describeType {m : Mechanism} (hm : m.Built) {h : Handle}
    (hh : h.holding = m.holding) {f : EntityField} {d : Descriptor} (hd : d.WellFormed)
    (hf : m.field f = d.toText) (t : Tape) :
    Evaluates (describeType m.role h f) t (.ok d) t := by
  refine (evaluates_describe hm hh f t).bind_ok (evaluates_ok ?_ t)
  rw [hf, readType, Descriptor.parse_toText hd]
  rfl

theorem evaluates_readDescriptors {m : Mechanism} (hm : m.Built) {h : Handle}
    (hh : h.holding = m.holding) (t : Tape) :
    Evaluates (readDescriptors m.role h) t (.ok m.descriptors) t := by
  have texts : (⟨m.field .inputDomain, m.field .outputDomain, m.field .inputMetric,
      m.field .outputDistance, m.inputDomain.carrier, m.inputMetric.distanceType,
      m.boundType⟩ : Descriptors) = m.descriptors := by
    cases m <;> rfl
  rw [← texts]
  refine (evaluates_describe hm hh .inputDomain t).bind_ok ?_
  refine (evaluates_describe hm hh .outputDomain t).bind_ok ?_
  refine (evaluates_describe hm hh .inputMetric t).bind_ok ?_
  refine (evaluates_describe hm hh .outputDistance t).bind_ok ?_
  refine (evaluates_describeType hm hh (f := .inputCarrier) hm.input.carrier
    (by cases m <;> rfl) t).bind_ok ?_
  refine (evaluates_describeType hm hh (f := .inputDistanceType)
    m.inputMetric.wellFormed_distanceType (by cases m <;> rfl) t).bind_ok ?_
  exact (evaluates_describeType hm hh (f := .outputBoundType) m.wellFormed_boundType
    (by cases m <;> rfl) t).bind_ok (.pure _ t)

omit [Elementary] in
theorem hasCounts_eq (m : Mechanism) :
    Descriptors.hasCounts m.inputMetric.descriptor m.inputMetric.distanceType = m.countsInput := by
  have same : ∀ q r : Numeric, (Descriptor.numeric q == Descriptor.numeric r) = (q == r) := by
    intro q r
    rw [Bool.eq_iff_iff, beq_iff_eq, beq_iff_eq]
    simp [Descriptor.numeric]
  unfold Descriptors.hasCounts Mechanism.countsInput
  rw [Metric.ofDescriptor?_descriptor]
  exact congrArg₂ (fun a b => m.inputMetric.isDataset || a || b) (same _ _) (same _ _)

/-- The host can describe every handle on a built mechanism. -/
theorem evaluates_ofHandle {m : Mechanism} (hm : m.Built) {h : Handle} (hh : h.holding = m.holding)
    (t : Tape) : ∃ e : Entity m.role, e.handle = h ∧ e.Represents m ∧
      Evaluates (ofHandle m.role h) t (.ok e) t := by
  refine ⟨⟨h, m.descriptors, m.countsInput⟩, rfl, ⟨rfl, hm, hh, rfl, rfl⟩, ?_⟩
  refine evaluates_orElseRun ?_ (keepsTape_drop h)
  have metric : readType m.descriptors.inputMetric = .ok m.inputMetric.descriptor := by
    show readType m.inputMetric.descriptor.toText = _
    rw [readType, Descriptor.parse_toText m.inputMetric.wellFormed]
    rfl
  refine (evaluates_readDescriptors hm hh t).bind_ok ((evaluates_ok metric t).bind_ok ?_)
  rw [← hasCounts_eq m]
  exact .pure _ t

/-! ## Operations -/

namespace Represents

variable {r : Role} {e : Entity r} {m : Mechanism}

theorem payload (h : e.Represents m) : e.handle.payload = payloadOf m := by
  rw [Handle.payload, h.holding, payloadOf]

theorem bindings_wellFormed (h : e.Represents m) : e.descriptors.bindings.WellFormed := by
  rw [h.descriptors]
  have types := h.built.input.carrier
  intro x hx
  simp only [Descriptors.bindings, Mechanism.descriptors, List.mem_cons, List.not_mem_nil,
    or_false] at hx
  rcases hx with rfl | rfl | rfl
  · exact types
  · exact m.inputMetric.wellFormed_distanceType
  · exact m.wellFormed_boundType

theorem lookups (h : e.Represents m) :
    e.descriptors.bindings.lookup "TI" = some m.inputDomain.carrier ∧
    e.descriptors.bindings.lookup "QI" = some m.inputMetric.distanceType ∧
    e.descriptors.bindings.lookup "QO" = some m.boundType := by
  rw [h.descriptors]
  exact ⟨rfl, rfl, rfl⟩

theorem evaluates_returned {w : PrivateRelease.Value} (hw : w.type.WellFormed) (t : Tape) :
    Evaluates (Returned.ofPayload (.reference (.object w)) .value) t
      (Value.ofNative w >>= fun x => .ok (.value x)) t := by
  refine (evaluates_ok (x := Handle.ofObject w) rfl t).bind_ok ?_
  exact (evaluates_andAlways (evaluates_read hw t) (keepsTape_drop _)).bind fun x _ => .pure _ t

omit [Elementary] in
theorem evaluates_toValue {a : Action Returned} {r : Except Failure Value} {t t' : Tape}
    (h : Evaluates a t (r >>= fun x => .ok (.value x)) t') :
    Evaluates (do let returned ← a; Action.ofExcept returned.toValue) t r t' := by
  cases r with
  | error f => exact h.bind_error
  | ok x => exact h.bind_ok (evaluates_ok rfl t')

theorem expectDistance_eq (h : e.Represents m) (d : Value) :
    e.expectDistance d = m.expectDistance d := by
  rw [Entity.expectDistance, h.nonnegativeInput, h.descriptors, Mechanism.expectDistance]
  rfl

omit [Elementary] in
theorem returns_value (r : Role) : r.invoke.returns = .value ∧ r.map.returns = .value := by
  cases r <;> exact ⟨rfl, rfl⟩

variable {v : Value} {o w : PrivateRelease.Value} {t t' : Tape}

theorem evaluates_invoke_refused (h : e.Represents m) {f : Failure}
    (hv : v.toNative m.inputDomain.carrier = .error f) : Evaluates (e.invoke v) t (.error f) t := by
  have prepared := prepared_invoke r e.handle h.lookups.1 v
  rw [hv] at prepared
  exact (Signature.evaluates_call_refused h.bindings_wellFormed prepared t).bind_error

/-- An entity is invoked as its mechanism is, on the same draws. -/
theorem evaluates_invoke (h : e.Represents m) (hv : v.toNative m.inputDomain.carrier = .ok o)
    (hw : m.invoke o t = .ok (w, t')) : Evaluates (e.invoke v) t (Value.ofNative w) t' := by
  have prepared := prepared_invoke r e.handle h.lookups.1 v
  rw [hv, h.payload] at prepared
  have plain : w.IsPlain := by
    have released := h.built.invoke (Value.toNative_eq_ok hv).2 t
    rwa [hw] at released
  have read : Evaluates (Returned.ofPayload (.reference (.object w)) r.invoke.returns) t'
      (Value.ofNative w >>= fun x => .ok (.value x)) t' := by
    rw [(returns_value r).1]
    exact evaluates_returned plain.wellFormed t'
  exact evaluates_toValue (Signature.evaluates_call h.bindings_wellFormed prepared r.lookup_invoke
    (h.role ▸ body_invoke hw) read)

theorem evaluates_invoke_error (h : e.Represents m) (hv : v.toNative m.inputDomain.carrier = .ok o)
    {why : Error} (hw : m.invoke o t = .error why) :
    Evaluates (e.invoke v) t (.error (.ofCore why)) t := by
  have prepared := prepared_invoke r e.handle h.lookups.1 v
  rw [hv, h.payload] at prepared
  have clean : why.WellFormed := by
    have released := h.built.invoke (Value.toNative_eq_ok hv).2 t
    rwa [hw] at released
  rw [← Failure.ofCall_failed clean]
  exact (Signature.evaluates_call_error h.bindings_wellFormed prepared r.lookup_invoke
    (h.role ▸ body_invoke_error hw)).bind_error

/-- The bound of an entity is that of its mechanism. -/
theorem evaluates_boundAt (h : e.Represents m) (d : Value) (t : Tape) :
    Evaluates (e.boundAt d) t (do
      m.expectDistance d
      let o ← d.toNative m.inputMetric.distanceType
      let l ← (m.map o).mapError .ofCore
      Value.ofNative l) t := by
  unfold Entity.boundAt
  rw [h.expectDistance_eq]
  refine (evaluates_ofExcept _ t).bind fun _ _ => ?_
  have prepared := prepared_map r e.handle h.lookups.2.1 d
  cases hd : d.toNative m.inputMetric.distanceType with
  | error f =>
    rw [hd] at prepared
    exact (Signature.evaluates_call_refused h.bindings_wellFormed prepared t).bind_error
  | ok o =>
    rw [hd, h.payload] at prepared
    show Evaluates _ t ((m.map o).mapError Failure.ofCore >>= Value.ofNative) t
    have maps := h.built.map (Value.toNative_eq_ok hd).1
    have body := h.role ▸ body_map (.text (Descriptor.argsText [])) t m o
    cases hl : m.map o with
    | error why =>
      rw [hl] at maps body
      show Evaluates _ t (.error (Failure.ofCore why)) t
      rw [← Failure.ofCall_failed (Error.IsUnusable.wellFormed maps)]
      exact (Signature.evaluates_call_error h.bindings_wellFormed prepared r.lookup_map
        body).bind_error
    | ok l =>
      rw [hl] at maps body
      have typed : l.type.WellFormed := by
        rw [show l.type = m.lossType from maps]
        exact m.wellFormed_lossType
      refine evaluates_toValue (Signature.evaluates_call h.bindings_wellFormed prepared r.lookup_map
        body ?_)
      rw [(returns_value r).2]
      exact evaluates_returned typed t

/-- A check by an entity is one by its mechanism. -/
theorem evaluates_check (h : e.Represents m) (d bound : Value) (t : Tape) :
    Evaluates (e.check d bound) t (do
      m.expectDistance d
      let o ← d.toNative m.inputMetric.distanceType
      let b ← bound.toNative m.boundType
      (m.check o b).mapError .ofCore) t := by
  unfold Entity.check
  rw [h.expectDistance_eq]
  refine (evaluates_ofExcept _ t).bind fun _ _ => ?_
  have prepared := prepared_check r e.handle h.lookups.2.1 h.lookups.2.2 d bound
  cases hd : d.toNative m.inputMetric.distanceType with
  | error f =>
    rw [hd] at prepared
    exact (Signature.evaluates_call_refused h.bindings_wellFormed prepared t).bind_error
  | ok o =>
    cases hb : bound.toNative m.boundType with
    | error f =>
      rw [hd, hb] at prepared
      exact (Signature.evaluates_call_refused h.bindings_wellFormed prepared t).bind_error
    | ok b =>
      rw [hd, hb, h.payload] at prepared
      show Evaluates _ t ((m.check o b).mapError Failure.ofCore) t
      have maps := h.built.check (Value.toNative_eq_ok hd).1 (Value.toNative_eq_ok hb).1
      have body := h.role ▸ body_check (.text (Descriptor.argsText [])) t m o b
      cases hc : m.check o b with
      | error why =>
        rw [hc] at maps body
        show Evaluates _ t (.error (Failure.ofCore why)) t
        rw [← Failure.ofCall_failed (Error.IsUnusable.wellFormed maps)]
        exact (Signature.evaluates_call_error h.bindings_wellFormed prepared r.lookup_check
          body).bind_error
      | ok verdict =>
        rw [hc] at body
        have read : Evaluates (Returned.ofPayload (.bool verdict) r.check.returns) t
            (.ok (.value (.bool verdict))) t := by
          have announced : r.check.returns = .bool := by cases r <;> rfl
          rw [announced]
          exact (evaluates_ok (by cases verdict <;> rfl) t).bind_ok (.pure _ t)
        exact (Signature.evaluates_call h.bindings_wellFormed prepared r.lookup_check body
          read).bind_ok (evaluates_ok rfl t)

end Represents

end Entity

end Host

end PrivateRelease
