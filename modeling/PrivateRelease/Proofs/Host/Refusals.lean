import PrivateRelease.Host.Combination
import PrivateRelease.Proofs.Host.Preparation

/-!
# Refusals of the host

What the host does on its own account, before and after a native call, it fails at with failures of
its own: choosing types, checking distances and printed descriptors, putting a call together, and
turning values without curves into host values.
-/

namespace PrivateRelease.Host

/-- A failure that is not reported as one of a native call. -/
def Failure.IsOwn (f : Failure) : Prop := f.code? = none

/-- Work of the host alone. -/
abbrev Hosted {α : Type} : Except Failure α → Prop := Yields Failure.IsOwn fun _ => True

theorem hosted_ok {α : Type} (x : α) : Hosted (.ok x) := trivial

theorem Hosted.isOwn {α : Type} {r : Except Failure α} (h : Hosted r) {f : Failure}
    (hf : r = .error f) : f.IsOwn := by
  rw [hf] at h
  exact h

theorem Hosted.step {α β : Type} {r : Except Failure α} {k : α → Except Failure β} (h : Hosted r)
    (hk : ∀ x, Hosted (k x)) : Hosted (r >>= k) := h.bind fun x _ => hk x

/-! ## Types -/

theorem Marker.hosted_toDescriptor (m : Marker) : Hosted m.toDescriptor := by
  unfold toDescriptor
  split
  · trivial
  · rfl

theorem TypeHint.hosted_toDescriptor (h : TypeHint) : Hosted h.toDescriptor := by
  cases h with
  | host m => exact m.hosted_toDescriptor
  | descriptor text =>
    show Hosted ((Descriptor.parse text).mapError _)
    cases Descriptor.parse text with
    | ok d => trivial
    | error why => rfl

namespace Value

mutual

theorem hosted_inferred (v : Value) : Hosted v.inferred := by
  match v with
  | list [] => exact rfl
  | list (v :: vs) =>
    rw [inferred]
    exact (hosted_inferred v).step fun _ => trivial
  | tuple items =>
    rw [inferred]
    exact (hosted_inferredAll items).step fun _ => trivial
  | bool _ => exact trivial
  | int _ => exact trivial
  | float _ => exact trivial
  | text _ => exact trivial

theorem hosted_inferredAll (vs : List Value) : Hosted (inferredAll vs) := by
  match vs with
  | [] => exact trivial
  | v :: vs =>
    rw [inferredAll]
    exact (hosted_inferred v).step fun _ => (hosted_inferredAll vs).step fun _ => trivial

end

end Value

namespace Hints

theorem hosted_resolve (h : Hints) (name : String) {fallback : Except Failure Descriptor}
    (hf : Hosted fallback) : Hosted (h.resolve name fallback) := by
  unfold resolve
  split
  · exact TypeHint.hosted_toDescriptor _
  · exact hf

theorem hosted_require (h : Hints) (name : String) : Hosted (h.require name) :=
  h.hosted_resolve name rfl

end Hints

theorem hosted_template (shape : String) (b : Bindings) : Hosted (template shape b) := by
  unfold template
  split
  · trivial
  · rfl

theorem Library.hosted_size (parameter : String) (n : Nat) : Hosted (size parameter n) := by
  unfold size
  split
  · trivial
  · rfl

/-! ## Values -/

namespace Value

theorem hosted_demand {α : Type} (v : Value) (d : Descriptor) (x : Option α) :
    Hosted (v.demand d x) := by
  cases x with
  | some _ => trivial
  | none => rfl

theorem hosted_toNumeric (v : Value) (q : Numeric) : Hosted (v.toNumeric q) := by
  cases q with
  | integer k =>
    refine (v.hosted_demand _ _).step fun n => ?_
    split
    · trivial
    · rfl
  | float p => exact (v.hosted_demand _ _).step fun _ => trivial

theorem hosted_toScalar (v : Value) (p : Primitive) : Hosted (v.toScalar p) := by
  cases p with
  | bool => exact v.hosted_demand _ _
  | numeric q => exact v.hosted_toNumeric q
  | string => exact v.hosted_demand _ _

theorem hosted_toScalars (p : Primitive) (vs : List Value) : Hosted (toScalars p vs) := by
  induction vs with
  | nil => trivial
  | cons v vs ih => exact (v.hosted_toScalar p).step fun _ => ih.step fun _ => trivial

theorem hosted_toWord (v : Value) (d : Descriptor) : Hosted (v.toWord d) := by
  unfold toWord
  split
  · exact (v.hosted_toScalar _).step fun _ => trivial
  · exact (v.hosted_toNumeric _).step fun _ => trivial
  · exact (v.hosted_demand _ _).step fun _ => trivial
  · rfl

theorem hosted_toSlot (v : Value) (d : Descriptor) : Hosted (v.toSlot d) := by
  unfold toSlot
  split
  · exact (v.hosted_toScalar _).step fun _ => trivial
  · exact (v.hosted_toNumeric _).step fun _ => trivial
  · rfl

mutual

theorem hosted_toNative (d : Descriptor) (v : Value) : Hosted (toNative d v) := by
  match d with
  | .primitive p =>
    rw [toNative]
    exact (v.hosted_toScalar p).step fun _ => trivial
  | .tuple items =>
    rw [toNative]
    refine (v.hosted_demand _ _).step fun parts => ?_
    split
    · rfl
    · exact (hosted_toNatives items parts).step fun _ => trivial
  | .generic name args =>
    rw [toNative]
    split
    · rfl
    · refine (v.hosted_demand _ _).step fun items => ?_
      split
      · exact (hosted_toScalars _ items).step fun _ => trivial
      · rfl

theorem hosted_toNatives (ds : List Descriptor) (vs : List Value) : Hosted (toNatives ds vs) := by
  match ds, vs with
  | d :: ds, v :: vs =>
    rw [toNatives]
    exact (hosted_toNative d v).step fun _ => (hosted_toNatives ds vs).step fun _ => trivial
  | [], _ =>
    rw [toNatives]
    · trivial
    · simp
  | _ :: _, [] =>
    rw [toNatives]
    · trivial
    · simp

end

theorem hosted_ofScalar (p : Primitive) (x : p.Carrier) : Hosted (ofScalar p x) := by
  cases p with
  | bool => trivial
  | string => trivial
  | numeric q =>
    cases q with
    | float p => trivial
    | integer k =>
      cases k with
      | u64 =>
        show Hosted (ofUnsigned _)
        unfold ofUnsigned
        split
        · trivial
        · rfl
      | _ => trivial

theorem hosted_ofScalars (p : Primitive) (xs : List p.Carrier) : Hosted (ofScalars p xs) := by
  induction xs with
  | nil => trivial
  | cons x xs ih => exact (hosted_ofScalar p x).step fun _ => ih.step fun _ => trivial

theorem hosted_ofNatives {vs : List PrivateRelease.Value} (h : ∀ v ∈ vs, Hosted (ofNative v)) :
    Hosted (ofNatives vs) := by
  induction vs with
  | nil => exact trivial
  | cons v vs ih =>
    obtain ⟨first, rest⟩ := List.forall_mem_cons.mp h
    rw [ofNatives]
    exact first.step fun _ => (ih rest).step fun _ => trivial

/-- Only a curve has no host value because the native side says so. -/
theorem hosted_ofNative {v : PrivateRelease.Value} (h : v.IsPlain) : Hosted (ofNative v) := by
  induction h with
  | scalar p x => exact hosted_ofScalar p x
  | vector p xs =>
    rw [ofNative]
    exact (hosted_ofScalars p xs).step fun _ => trivial
  | tuple _ ih =>
    rw [ofNative]
    exact (hosted_ofNatives ih).step fun _ => trivial

end Value

/-! ## Calls -/

theorem Features.hosted_require (f : Features) (flags : List String) (operation : String) :
    Hosted (f.require flags operation) := by
  unfold require
  split
  · rfl
  · trivial

namespace Frame

theorem hosted_pushed (f : Frame) (b : Bindings) (p : Parameter) (a : Argument) :
    Hosted (f.pushed b p a) := by
  unfold pushed
  split
  · exact (hosted_template _ _).step fun _ => (Value.hosted_toWord _ _).step fun _ => trivial
  · exact (hosted_template _ _).step fun _ => (Value.hosted_toSlot _ _).step fun _ => trivial
  · exact (hosted_template _ _).step fun _ => (Value.hosted_toNative _ _).step fun _ => trivial
  · trivial
  · trivial
  · rfl

theorem hosted_pushedAll (b : Bindings) (args : List (Parameter × Argument)) (f : Frame) :
    Hosted (pushedAll b args f) := by
  induction args generalizing f with
  | nil => trivial
  | cons arg args ih => exact (f.hosted_pushed b arg.1 arg.2).step fun f => ih f

end Frame

namespace Signature

theorem hosted_types (s : Signature) (b : Bindings) : Hosted (s.types b) := by
  have bound : Yields Failure.IsOwn (fun ds => ∀ d ∈ ds, True) (s.types b) := by
    refine Yields.mapM fun name _ => ?_
    split
    · trivial
    · rfl
  exact bound.mono (fun _ h => h) fun _ _ => trivial

theorem hosted_prepared (s : Signature) (features : Features) (b : Bindings)
    (args : List Argument) : Hosted (s.prepared features b args) := by
  refine (features.hosted_require _ _).step fun _ => ?_
  split
  · rfl
  · refine (s.hosted_types b).step fun types => ?_
    exact (Frame.hosted_pushedAll _ _ _).step fun _ => trivial

end Signature

/-! ## Entities -/

theorem hosted_expectBoundary (first second : Descriptors) : Hosted (expectBoundary first second) := by
  unfold expectBoundary
  split
  · rfl
  · split
    · rfl
    · trivial

theorem hosted_expectSame (what first other : String) : Hosted (expectSame what first other) := by
  unfold expectSame
  split
  · trivial
  · rfl

theorem hosted_expectCompatible (ms : List (Entity .measurement)) : Hosted (expectCompatible ms) := by
  cases ms with
  | nil => trivial
  | cons first rest =>
    show Hosted (rest.forM _)
    induction rest with
    | nil => trivial
    | cons other rest ih =>
      refine Hosted.step ?_ fun _ => ih
      exact (hosted_expectSame _ _ _).step fun _ => (hosted_expectSame _ _ _).step fun _ =>
        hosted_expectSame _ _ _

theorem hosted_curveMeasure (m : Entity .measurement) : Hosted (curveMeasure m) := by
  unfold curveMeasure
  dsimp only
  split
  · split
    · rfl
    · split
      · trivial
      · rfl
  · rfl

namespace AnyEntity

theorem hosted_toTransformation (e : AnyEntity) : Hosted e.toTransformation := by
  cases e with
  | transformation t => trivial
  | measurement m => rfl

theorem hosted_toMeasurement (e : AnyEntity) : Hosted e.toMeasurement := by
  cases e with
  | transformation t => rfl
  | measurement m => trivial

end AnyEntity

end PrivateRelease.Host
