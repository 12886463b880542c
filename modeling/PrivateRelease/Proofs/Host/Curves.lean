import PrivateRelease.Proofs.Host.Refinement
import PrivateRelease.Proofs.Number.Rounding

/-!
# Curves in the host

A privacy curve stays native: the host holds the object and asks it for its text and its epsilons.
The curve that is mapped to is the one that the mechanism is mapped to, and it is total.
-/

namespace PrivateRelease

/-- Where losses are curves, the map comes to a total one. -/
theorem Mechanism.Built.map_curve [Elementary] {m : Mechanism} (h : m.Built)
    (hm : m.hasCurves = true) {d : Value} (hd : d.type = m.inputMetric.distanceType) :
    Maps (fun l => ∃ k, l = .curve k ∧ k.IsTotal) (m.map d) := by
  obtain ⟨f, p, rfl, hf⟩ := Host.Entity.Represents.hasCurves_iff.mp hm
  have maps : Maps f.outputMeasure.IsLoss (f.map d) := (Measurement.Built.mapsDistances h).map hd
  rw [hf] at maps
  refine maps.mono (fun _ he => he) fun l hl => ?_
  cases hl with
  | curve _ total => exact ⟨_, rfl, total⟩

namespace Host

open Boundary

/-- The host's curve holds the native one, which fails only at an unusable number. -/
structure Curve.Represents (c : Curve) (k : PrivateRelease.Curve) : Prop where
  holding : c.handle.holding = .object (.curve k)
  total : k.IsTotal

variable [Elementary]

/-! ## Mapping -/

namespace Entity.Represents

variable {e : Entity .measurement} {m : Mechanism}

/-- The curve of an entity is that of its mechanism. -/
theorem evaluates_mapCurve (h : e.Represents m) (hm : m.hasCurves = true) (d : Value) (t : Tape) :
    Evaluates (e.mapCurve d) t (do
      m.expectDistance d
      let o ← d.toNative m.inputMetric.distanceType
      let l ← (m.map o).mapError .ofCore
      return ⟨.ofObject l⟩) t := by
  simp only [Entity.mapCurve, h.isCurveValued_eq, hm]
  rw [h.expectDistance_eq]
  refine (evaluates_ofExcept _ t).bind fun _ _ => ?_
  have prepared : Signature.measurementMapCurve.prepared .none e.descriptors.bindings
      [.handle e.handle, .value d] = (d.toNative m.inputMetric.distanceType >>= fun o =>
        .ok ([], (Frame.empty.withPayload e.handle.payload).withTemporary (.ofObject o))) :=
    prepared_map .measurement e.handle h.lookups.2.1 d
  have lookup : Export.lookup (Signature.measurementMapCurve.symbol []) = some .measurementMap :=
    Role.measurement.lookup_map
  cases hd : d.toNative m.inputMetric.distanceType with
  | error f =>
    rw [hd] at prepared
    exact (Signature.evaluates_call_refused h.bindings_wellFormed prepared t).bind_error
  | ok o =>
    rw [hd, h.payload] at prepared
    show Evaluates _ t ((m.map o).mapError Failure.ofCore >>= fun l => .ok (Curve.mk (.ofObject l))) t
    have maps := h.built.map (Value.toNative_eq_ok hd).1
    have body := body_map (.text (Descriptor.argsText [])) t m o
    rw [h.role] at body
    cases hl : m.map o with
    | error why =>
      rw [hl] at maps body
      show Evaluates _ t (.error (Failure.ofCore why)) t
      rw [← Failure.ofCall_failed (Error.IsUnusable.wellFormed maps)]
      exact (Signature.evaluates_call_error h.bindings_wellFormed prepared lookup body).bind_error
    | ok l =>
      rw [hl] at body
      have read : Evaluates (Returned.ofPayload (.reference (.object l))
          Signature.measurementMapCurve.returns) t (.ok (.handle (.ofObject l))) t :=
        (evaluates_ok rfl t).bind_ok (.pure _ t)
      refine (Signature.evaluates_call h.bindings_wellFormed prepared lookup body read).bind_ok ?_
      exact (evaluates_ok rfl t).bind_ok (.pure _ t)

theorem mapCurve_eq (h : e.Represents m) (hm : m.hasCurves = true)
    (d : Value) (l : Ledger) : (e.mapCurve d l).1 = (do
      m.expectDistance d
      let o ← d.toNative m.inputMetric.distanceType
      let x ← (m.map o).mapError .ofCore
      return ⟨.ofObject x⟩) :=
  (h.evaluates_mapCurve hm d l.tape l rfl).1

/-- Where losses are no curves there is none to be mapped to. -/
theorem mapCurve_refused (h : e.Represents m) (hm : m.hasCurves = false) (d : Value) (l : Ledger) :
    (e.mapCurve d l).1 = .error (.unsupported (.noCurve e.descriptors.outputDistance)) := by
  simp only [Entity.mapCurve, h.isCurveValued_eq, hm]
  rfl

/-- A loss that is a curve is not given as a value. -/
theorem map_refused (h : e.Represents m) (hm : m.hasCurves = true) (d : Value) (l : Ledger) :
    (e.map d l).1 = .error (.unsupported (.curveLoss e.descriptors.outputDistance)) := by
  simp only [Entity.map, h.isCurveValued_eq, hm]
  rfl

end Entity.Represents

/-! ## Operations on curves -/

namespace Curve.Represents

variable {c : Curve} {k : PrivateRelease.Curve}

omit [Elementary] in
theorem payload (h : c.Represents k) : c.handle.payload = .reference (.object (.curve k)) := by
  rw [Handle.payload, h.holding]
  rfl

/-- A curve is asked for its text. -/
theorem evaluates_toText (h : c.Represents k) (t : Tape) :
    Evaluates c.toText t (.ok (removeNul (PrivateRelease.Value.curve k).toText)) t := by
  have prepared : Signature.objectText.prepared .none [] [.handle c.handle] =
      .ok ([], Frame.empty.withPayload (.reference (.object (.curve k)))) := by
    rw [Signature.prepared_eq rfl rfl rfl, ← h.payload]
    rfl
  have lookup : Export.lookup (Signature.objectText.symbol []) = some .objectText :=
    Signature.lookup_plain (by simp [Signature.objectText, Signature.plain, Export.plain])
  have body : Evaluates (Entry.objectText.body (.text (Descriptor.argsText []))
      (.ofList [.reference (.object (.curve k))])) t
      (.ok (.reference (.text (removeNul (PrivateRelease.Value.curve k).toText)))) t :=
    (Call.evaluates_ok rfl t).bind_ok (Call.evaluates_give _ t)
  have read : Evaluates (Returned.ofPayload
      (.reference (.text (removeNul (PrivateRelease.Value.curve k).toText)))
      Signature.objectText.returns) t
      (.ok (.value (.text (removeNul (PrivateRelease.Value.curve k).toText)))) t :=
    (evaluates_takeText _ t).bind_ok (.pure _ t)
  exact (Signature.evaluates_call (by simp [Bindings.WellFormed]) prepared lookup body read).bind_ok
    (evaluates_ok rfl t)

/-- A curve is asked for its epsilon at a delta. -/
theorem evaluates_epsilon (h : c.Represents k) (delta : Binary .double) (t : Tape) :
    Evaluates (c.epsilon delta) t ((k.epsilon delta).mapError .ofCore) t := by
  have prepared : Signature.curveEpsilon.prepared .none []
      [.handle c.handle, .value (.float delta)] = .ok ([], (Frame.empty.withPayload
        (.reference (.object (.curve k)))).withPayload
          (.reference (.slot (.numeric (.float .double)) delta))) := by
    have shape : template "f64" [] = .ok (.float .double) :=
      template_primitive (.numeric (.float .double)) _
    have slot : (Value.float delta).toSlot (.float .double) =
        .ok (.slot (.numeric (.float .double)) delta) := by
      show Except.ok (Reference.slot (.numeric (.float .double)) (Binary.convert delta)) = _
      rw [Binary.convert_self]
    rw [Signature.prepared_eq rfl rfl rfl, ← h.payload]
    simp only [Signature.curveEpsilon, Signature.plain, List.zip_cons_cons, List.zip_nil_left,
      Frame.pushedAll, Frame.pushed_handle (p := ⟨"curve", "", .handle⟩) rfl,
      Frame.pushed_byReference (p := ⟨"delta", "f64", .byReference⟩) rfl shape, slot]
    rfl
  have lookup : Export.lookup (Signature.curveEpsilon.symbol []) = some .curveEpsilon :=
    Signature.lookup_plain (by simp [Signature.curveEpsilon, Signature.plain, Export.plain])
  have body : Evaluates (Entry.curveEpsilon.body (.text (Descriptor.argsText []))
      (.ofList [.reference (.object (.curve k)),
        .reference (.slot (.numeric (.float .double)) delta)])) t
      ((k.epsilon delta).mapError .failed >>= fun x => .ok (.double x)) t := by
    refine (Call.evaluates_ok rfl t).bind_ok ((Call.evaluates_ok rfl t).bind_ok ?_)
    refine (Call.evaluates_ok (Payload.toSlot_number (q := .float .double) delta "delta") t).bind_ok
      ?_
    exact (Call.evaluates_ofCore _ t).bind fun x _ => .pure _ t
  have total := h.total delta
  cases he : k.epsilon delta with
  | error why =>
    rw [he] at body total
    show Evaluates _ t (.error (Failure.ofCore why)) t
    rw [← Failure.ofCall_failed (Error.IsUnusable.wellFormed total)]
    exact (Signature.evaluates_call_error (by simp [Bindings.WellFormed]) prepared lookup
      body).bind_error
  | ok x =>
    rw [he] at body
    have read : Evaluates (Returned.ofPayload (.double x) Signature.curveEpsilon.returns) t
        (.ok (.value (.float x))) t := by
      have word : Value.ofWord (.double x) (.float .double) = .ok (.float x) := by
        show Except.ok (Value.float (Payload.double x).toDouble) = _
        rw [Payload.toDouble_double]
      exact (evaluates_ok word t).bind_ok (.pure _ t)
    exact (Signature.evaluates_call (by simp [Bindings.WellFormed]) prepared lookup body
      read).bind_ok (evaluates_ok rfl t)

end Curve.Represents

end Host

end PrivateRelease
