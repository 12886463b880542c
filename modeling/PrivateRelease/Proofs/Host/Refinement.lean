import PrivateRelease.Proofs.Host.Combinations

/-!
# The host refines the library

A program makes an entity exactly when it denotes a mechanism, and then the entity does on host
values what the mechanism does on the native values that they stand for. If the library fails, on the
way or in an operation on the entity, the host reports the error of the library: its kind, and its
message as it is.
-/

namespace PrivateRelease

/-- Whether losses are privacy curves, which have no host value. -/
def Mechanism.hasCurves : Mechanism → Bool
  | transformation _ => false
  | measurement m =>
    match m.outputMeasure with
    | .smoothedMaxDivergence _ => true
    | _ => false

namespace Host

open Boundary Stop

variable [Elementary]

/-! ## Programs -/

theorem toMeasurement_refines {e : AnyEntity} {m : Mechanism} (h : e.Represents m) :
    Refines (Action.ofExcept e.toMeasurement) (fun e m => e.Represents (.measurement m))
      (asMeasurement m) := by
  cases e with
  | transformation e =>
    cases m with
    | transformation m =>
      exact refines_refused (f := .mismatch (.notMeasurement e.descriptors.outputDistance)) rfl
        fun t => evaluates_ofExcept _ t
    | measurement m => cases Entity.Represents.role h
  | measurement e =>
    cases m with
    | transformation m => cases Entity.Represents.role h
    | measurement m => exact Refines.pure h

namespace Program

mutual

/-- A program makes the entity that represents what it denotes. -/
theorem run_refines (p : Program) : Refines p.run AnyEntity.Represents p.denote := by
  match p with
  | make l c hints =>
    rw [run, denote]
    exact c.run_refines l hints
  | chain l first second =>
    rw [run, denote]
    refine (run_refines first).bind fun e f hf => ?_
    exact (run_refines second).bind fun e g hg => chain_refines hf hg
  | compose l parts policy =>
    rw [run, denote]
    refine (runAll_refines parts).bind fun es ms h => ?_
    exact (compose_refines h policy).map fun _ _ h => h
  | amplify l part population records measure =>
    rw [run, denote]
    refine (run_refines part).bind fun e m h => (toMeasurement_refines h).bind fun e m h => ?_
    exact (amplify_refines h population records measure).map fun _ _ h => h
  | fixDelta l part delta =>
    rw [run, denote]
    refine (run_refines part).bind fun e m h => (toMeasurement_refines h).bind fun e m h => ?_
    exact (fixDelta_refines h delta).map fun _ _ h => h

theorem runAll_refines (ps : List Program) : Refines (runAll ps) Represented (denoteAll ps) := by
  match ps with
  | [] => exact Refines.pure .nil
  | p :: ps =>
    rw [runAll, denoteAll]
    refine (run_refines p).bind fun e m h => (toMeasurement_refines h).bind fun e m h => ?_
    exact (runAll_refines ps).bind fun es ms hs => Refines.pure (.cons h hs)

end

end Program

/-! ## Operations -/

/-- The entity is described as the mechanism prints itself, holds it, and does on host values what it
does on the native values that they stand for. -/
structure Entity.Simulates {r : Role} (e : Entity r) (m : Mechanism) : Prop where
  inputDomain : e.descriptors.inputDomain = m.inputDomain.toText
  outputDomain : e.descriptors.outputDomain = m.outputDomain.toText
  inputMetric : e.descriptors.inputMetric = m.inputMetric.toText
  outputDistance : e.descriptors.outputDistance = m.outputDistance
  holding : e.handle.holding = m.holding
  /-- The mechanism draws from the tape that the entity finds. -/
  invoke : ∀ v w l, (e.invoke v l).1 = .ok w ↔ ∃ o x t, v.toNative m.inputDomain.carrier = .ok o ∧
    m.invoke o l.tape = .ok (x, t) ∧ Value.ofNative x = .ok w
  invoke_failed : ∀ v l o why, v.toNative m.inputDomain.carrier = .ok o →
    m.invoke o l.tape = .error why → (e.invoke v l).1 = .error (.ofCore why)
  map : ∀ d w l, (e.map d l).1 = .ok w ↔ m.expectDistance d = .ok () ∧
    ∃ o x, d.toNative m.inputMetric.distanceType = .ok o ∧ m.map o = .ok x ∧
      Value.ofNative x = .ok w
  map_failed : ∀ d l o why, m.hasCurves = false → m.expectDistance d = .ok () →
    d.toNative m.inputMetric.distanceType = .ok o → m.map o = .error why →
      (e.map d l).1 = .error (.ofCore why)
  check : ∀ d bound b l, (e.check d bound l).1 = .ok b ↔ m.expectDistance d = .ok () ∧
    ∃ o o', d.toNative m.inputMetric.distanceType = .ok o ∧ bound.toNative m.boundType = .ok o' ∧
      m.check o o' = .ok b
  check_failed : ∀ d bound l o o' why, m.expectDistance d = .ok () →
    d.toNative m.inputMetric.distanceType = .ok o → bound.toNative m.boundType = .ok o' →
      m.check o o' = .error why → (e.check d bound l).1 = .error (.ofCore why)

/-- The entity simulates the mechanism, whichever role it has. -/
def AnyEntity.Simulates : AnyEntity → Mechanism → Prop
  | transformation e, m => e.Simulates m
  | measurement e, m => e.Simulates m

namespace Entity.Represents

variable {r : Role} {e : Entity r} {m : Mechanism}

theorem invoke_eq (h : e.Represents m) (v : Value) (l : Ledger) : (e.invoke v l).1 = (do
    let o ← v.toNative m.inputDomain.carrier
    let (x, _) ← (m.invoke o l.tape).mapError .ofCore
    Value.ofNative x) := by
  cases hv : v.toNative m.inputDomain.carrier with
  | error f => exact (h.evaluates_invoke_refused hv l rfl).1
  | ok o =>
    show _ = ((m.invoke o l.tape).mapError Failure.ofCore >>= fun drawn => Value.ofNative drawn.1)
    cases hw : m.invoke o l.tape with
    | error why => exact (h.evaluates_invoke_error hv hw l rfl).1
    | ok drawn => exact (h.evaluates_invoke hv hw l rfl).1

omit [Elementary] in
theorem hasCurves_iff : m.hasCurves = true ↔
    ∃ f p, m = .measurement f ∧ f.outputMeasure = .smoothedMaxDivergence p := by
  cases m with
  | transformation t => simp [Mechanism.hasCurves]
  | measurement f =>
    unfold Mechanism.hasCurves
    cases hf : f.outputMeasure <;> simp [hf]

/-- A loss that is a curve has no host value. -/
theorem ofNative_loss (h : e.Represents m) (hm : m.hasCurves = true) {o x : PrivateRelease.Value}
    (ho : o.type = m.inputMetric.distanceType) (hx : m.map o = .ok x) (w : Value) :
    Value.ofNative x ≠ .ok w := by
  have typed := h.built.map ho
  rw [hx] at typed
  obtain ⟨f, p, rfl, hf⟩ := hasCurves_iff.mp hm
  have loss : x.type = .generic "SMDCurve" [.float p] := by
    rw [show x.type = f.outputMeasure.distanceType from typed, hf]
    rfl
  cases x with
  | curve c => simp [Value.ofNative]
  | _ => simp [PrivateRelease.Value.type, Descriptor.vector] at loss

theorem boundAt_eq (h : e.Represents m) (d : Value) (l : Ledger) : (e.boundAt d l).1 = (do
    m.expectDistance d
    let o ← d.toNative m.inputMetric.distanceType
    let x ← (m.map o).mapError .ofCore
    Value.ofNative x) :=
  (h.evaluates_boundAt d l.tape l rfl).1

theorem boundAt_eq_ok_iff (h : e.Represents m) (d w : Value) (l : Ledger) :
    (e.boundAt d l).1 = .ok w ↔ m.expectDistance d = .ok () ∧
      ∃ o x, d.toNative m.inputMetric.distanceType = .ok o ∧ m.map o = .ok x ∧
        Value.ofNative x = .ok w := by
  rw [h.boundAt_eq]
  constructor
  · intro hw
    obtain ⟨_, hd, hw⟩ := bind_eq_ok_iff.mp hw
    obtain ⟨o, ho, hw⟩ := bind_eq_ok_iff.mp hw
    obtain ⟨x, hx, hw⟩ := bind_eq_ok_iff.mp hw
    exact ⟨hd, o, x, ho, mapError_eq_ok_iff.mp hx, hw⟩
  · rintro ⟨hd, o, x, ho, hx, hw⟩
    refine bind_eq_ok_iff.mpr ⟨(), hd, bind_eq_ok_iff.mpr ⟨o, ho, ?_⟩⟩
    exact bind_eq_ok_iff.mpr ⟨x, mapError_eq_ok_iff.mpr hx, hw⟩

theorem isCurveValued_eq {e : Entity .measurement} (h : e.Represents m) :
    e.descriptors.isCurveValued = m.hasCurves := by
  cases m with
  | transformation t => cases h.role
  | measurement f =>
    have text : e.descriptors.outputDistance = f.outputMeasure.toText := by
      rw [h.descriptors]
      rfl
    rw [Bool.eq_iff_iff, isCurveValued_iff text, hasCurves_iff]
    simp

/-- Where there are no curves the map is the bound. -/
theorem map_eq_boundAt (h : e.Represents m) (hm : m.hasCurves = false) (d : Value) :
    e.map d = e.boundAt d := by
  cases r with
  | transformation => rfl
  | measurement =>
    simp only [Entity.map, h.isCurveValued_eq, hm]
    rfl

theorem map_eq_ok_iff (h : e.Represents m) (d w : Value) (l : Ledger) :
    (e.map d l).1 = .ok w ↔ m.expectDistance d = .ok () ∧
      ∃ o x, d.toNative m.inputMetric.distanceType = .ok o ∧ m.map o = .ok x ∧
        Value.ofNative x = .ok w := by
  cases hm : m.hasCurves with
  | false => rw [h.map_eq_boundAt hm, h.boundAt_eq_ok_iff]
  | true =>
    have refused : (e.map d l).1 ≠ .ok w := by
      cases r with
      | transformation =>
        obtain ⟨f, p, rfl, -⟩ := hasCurves_iff.mp hm
        cases h.role
      | measurement =>
        simp only [Entity.map, h.isCurveValued_eq, hm]
        exact fun hw => nomatch hw
    refine iff_of_false refused ?_
    rintro ⟨-, o, x, ho, hx, hw⟩
    exact h.ofNative_loss hm (Value.toNative_eq_ok ho).1 hx w hw

theorem check_eq (h : e.Represents m) (d bound : Value) (l : Ledger) :
    (e.check d bound l).1 = (do
      m.expectDistance d
      let o ← d.toNative m.inputMetric.distanceType
      let o' ← bound.toNative m.boundType
      (m.check o o').mapError .ofCore) :=
  (h.evaluates_check d bound l.tape l rfl).1

theorem invoke_eq_ok_iff (h : e.Represents m) (v w : Value) (l : Ledger) :
    (e.invoke v l).1 = .ok w ↔ ∃ o x t, v.toNative m.inputDomain.carrier = .ok o ∧
      m.invoke o l.tape = .ok (x, t) ∧ Value.ofNative x = .ok w := by
  rw [h.invoke_eq]
  constructor
  · intro hw
    obtain ⟨o, ho, hw⟩ := bind_eq_ok_iff.mp hw
    obtain ⟨⟨x, t⟩, hx, hw⟩ := bind_eq_ok_iff.mp hw
    exact ⟨o, x, t, ho, mapError_eq_ok_iff.mp hx, hw⟩
  · rintro ⟨o, x, t, ho, hx, hw⟩
    refine bind_eq_ok_iff.mpr ⟨o, ho, ?_⟩
    exact bind_eq_ok_iff.mpr ⟨(x, t), mapError_eq_ok_iff.mpr hx, hw⟩

theorem check_eq_ok_iff (h : e.Represents m) (d bound : Value) (b : Bool) (l : Ledger) :
    (e.check d bound l).1 = .ok b ↔ m.expectDistance d = .ok () ∧
      ∃ o o', d.toNative m.inputMetric.distanceType = .ok o ∧ bound.toNative m.boundType = .ok o' ∧
        m.check o o' = .ok b := by
  rw [h.check_eq]
  constructor
  · intro hb
    obtain ⟨_, hd, hb⟩ := bind_eq_ok_iff.mp hb
    obtain ⟨o, ho, hb⟩ := bind_eq_ok_iff.mp hb
    obtain ⟨o', ho', hb⟩ := bind_eq_ok_iff.mp hb
    exact ⟨hd, o, o', ho, ho', mapError_eq_ok_iff.mp hb⟩
  · rintro ⟨hd, o, o', ho, ho', hb⟩
    refine bind_eq_ok_iff.mpr ⟨(), hd, bind_eq_ok_iff.mpr ⟨o, ho, ?_⟩⟩
    exact bind_eq_ok_iff.mpr ⟨o', ho', mapError_eq_ok_iff.mpr hb⟩

/-- An entity that represents a mechanism simulates it. -/
theorem simulates (h : e.Represents m) : e.Simulates m where
  inputDomain := congrArg Descriptors.inputDomain h.descriptors
  outputDomain := congrArg Descriptors.outputDomain h.descriptors
  inputMetric := congrArg Descriptors.inputMetric h.descriptors
  outputDistance := congrArg Descriptors.outputDistance h.descriptors
  holding := h.holding
  invoke := h.invoke_eq_ok_iff
  invoke_failed v l o why ho hw := by
    rw [h.invoke_eq, ho]
    simp [hw, bind, Except.bind, Except.mapError]
  map := h.map_eq_ok_iff
  map_failed d l o why hm hd ho hx := by
    rw [h.map_eq_boundAt hm, h.boundAt_eq, hd, ho]
    simp [hx, bind, Except.bind, Except.mapError]
  check := h.check_eq_ok_iff
  check_failed d bound l o o' why hd ho hb hc := by
    rw [h.check_eq, hd, ho, hb]
    simp [hc, bind, Except.bind, Except.mapError]

end Entity.Represents

/-- Running a program makes an entity that simulates what the program denotes, or reports why the
library failed, or the host refuses what denotes nothing. -/
theorem Program.run_simulates (p : Program) (l : Ledger) :
    match p.denote with
    | .ok m => ∃ e, (p.run l).1 = .ok e ∧ e.Simulates m
    | .error (.failed why) => (p.run l).1 = .error (.ofCore why)
    | .error .refused => ∃ f, (p.run l).1 = .error f := by
  have refined := p.run_refines l.tape
  match p.denote, refined with
  | .ok m, ⟨e, he, made⟩ =>
    refine ⟨e, (made l rfl).1, ?_⟩
    cases e <;> exact Entity.Represents.simulates he
  | .error (.failed why), evaluates => exact (evaluates l rfl).1
  | .error .refused, ⟨f, evaluates⟩ => exact ⟨f, (evaluates l rfl).1⟩

end Host

end PrivateRelease
