import PrivateRelease.Host.Combination
import PrivateRelease.Proofs.Host.Ownership

/-!
# Allocations of entities

What every operation of the library does to the number of live allocations: an operation that makes
an entity raises it by what the entity owns beyond its inputs, any other operation leaves it as it
was, and so does every failure.
-/

namespace PrivateRelease.Host

open Boundary

namespace Handle

theorem allocationCounts_append (hs hs' : List Handle) :
    allocationCounts (hs ++ hs') = allocationCounts hs + allocationCounts hs' := by
  induction hs with
  | nil => simp [allocationCounts]
  | cons h hs ih => simp [allocationCounts, ih, Nat.add_assoc]

theorem allocationCount_adopt (h : Handle) (children : List Handle) :
    (h.adopt children).allocationCount = h.allocationCount + allocationCounts children := by
  cases h
  simp [adopt, allocationCount, allocationCounts_append, Nat.add_assoc]

end Handle

variable [Elementary]

/-! ## Entities -/

/-- An entity, with all that its handle owns. -/
def Keeps {r : Role} (e : Entity r) (k : Int) : Prop := Holds e.handle k

namespace Entity

variable {r : Role}

omit [Elementary] in
theorem describe_mem (r : Role) : r.describe ∈ Signature.catalog := by
  cases r <;> simp [Role.describe, Signature.catalog]

theorem settles_describe (r : Role) (h : Handle) (f : EntityField) :
    Settles (describe r h f) 0 Owes := by
  refine (Signature.settles_call (describe_mem r) _ _ _).bind fun returned k hk => ?_
  exact hk.settles_result (by cases r <;> rfl) _

theorem settles_describeType (r : Role) (h : Handle) (f : EntityField) :
    Settles (describeType r h f) 0 Owes :=
  (settles_describe r h f).step fun _ => settles_result _

theorem settles_readDescriptors (r : Role) (h : Handle) : Settles (readDescriptors r h) 0 Owes := by
  refine (settles_describe r h _).step fun _ => (settles_describe r h _).step fun _ => ?_
  refine (settles_describe r h _).step fun _ => (settles_describe r h _).step fun _ => ?_
  refine (settles_describeType r h _).step fun _ => (settles_describeType r h _).step fun _ => ?_
  exact (settles_describeType r h _).step fun _ => .pure rfl

/-- The entity of a handle owns what the handle owns, which is given back if there is none. -/
theorem settles_ofHandle (r : Role) {h : Handle} {k : Int} (hk : Holds h k) :
    Settles (ofHandle r h) k Keeps := by
  have read : Settles (do
      let d ← readDescriptors r h
      let metric ← Action.ofExcept (readType d.inputMetric)
      return (⟨h, d, Descriptors.hasCounts metric d.inputDistance⟩ : Entity r)) 0
      fun e k => e.handle = h ∧ k = 0 := by
    refine (settles_readDescriptors r h).step fun d => (settles_result _).step fun metric => ?_
    exact .pure ⟨rfl, rfl⟩
  have made := settles_orElseRun read (frees_drop h)
  rw [Int.zero_add, ← show k = h.allocationCount from hk] at made
  refine made.mono fun e n hn => ?_
  rw [Keeps, hn.1, Holds]
  have : k = h.allocationCount := hk
  omega

theorem settles_invoke (e : Entity r) (v : Value) : Settles (e.invoke v) 0 Owes := by
  have hs : r.invoke ∈ Signature.catalog := by cases r <;> simp [Role.invoke, Signature.catalog]
  refine (Signature.settles_call hs _ _ _).bind fun returned k hk => ?_
  exact hk.settles_result (by cases r <;> rfl) _

theorem settles_boundAt (e : Entity r) (d : Value) : Settles (e.boundAt d) 0 Owes := by
  have hs : r.map ∈ Signature.catalog := by cases r <;> simp [Role.map, Signature.catalog]
  refine (settles_result _).step fun _ => ?_
  refine (Signature.settles_call hs _ _ _).bind fun returned k hk => ?_
  exact hk.settles_result (by cases r <;> rfl) _

theorem settles_check (e : Entity r) (dIn dOut : Value) : Settles (e.check dIn dOut) 0 Owes := by
  have hs : r.check ∈ Signature.catalog := by cases r <;> simp [Role.check, Signature.catalog]
  refine (settles_result _).step fun _ => ?_
  refine (Signature.settles_call hs _ _ _).bind fun returned k hk => ?_
  exact hk.settles_result (by cases r <;> rfl) _

theorem settles_map (e : Entity r) (d : Value) : Settles (e.map d) 0 Owes := by
  cases r with
  | transformation => exact settles_boundAt e d
  | measurement =>
    simp only [map]
    split
    · exact .throw _
    · exact settles_boundAt e d

theorem settles_mapCurve (m : Entity .measurement) (d : Value) :
    Settles (m.mapCurve d) 0 fun c => Holds c.handle := by
  have hs : Signature.measurementMapCurve ∈ Signature.catalog := by simp [Signature.catalog]
  have read : Settles (do
      Action.ofExcept (m.expectDistance d)
      let args := [.handle m.handle, .value d]
      let returned ← Signature.measurementMapCurve.call .none m.descriptors.bindings args
      return (⟨← Action.ofExcept returned.toHandle⟩ : Curve)) 0 fun c => Holds c.handle := by
    refine (settles_result _).step fun _ => ?_
    refine (Signature.settles_call hs _ _ _).bind fun returned k hk => ?_
    exact (hk.settles_toHandle rfl).bind fun h k hk => .pure hk
  unfold mapCurve
  split
  · exact read
  · exact .throw _

end Entity

namespace Curve

theorem settles_epsilon (c : Curve) (delta : Binary .double) : Settles (c.epsilon delta) 0 Owes := by
  have hs : Signature.curveEpsilon ∈ Signature.catalog := by simp [Signature.catalog]
  refine (Signature.settles_call hs _ _ _).bind fun returned k hk => ?_
  exact hk.settles_result rfl _

theorem settles_toText (c : Curve) : Settles c.toText 0 Owes := by
  have hs : Signature.objectText ∈ Signature.catalog := by simp [Signature.catalog]
  refine (Signature.settles_call hs _ _ _).bind fun returned k hk => ?_
  exact hk.settles_result rfl _

end Curve

/-! ## The library -/

/-- An entity that owns the given handles besides the `k` allocations of its own. -/
def Adopts (children : List Handle) (h : Handle) (k : Int) : Prop :=
  k + Handle.allocationCounts children = h.allocationCount

namespace Library

variable (l : Library)

theorem settles_make {r : Role} {s : Signature} (hs : s ∈ Signature.catalog)
    (ho : s.returns.isHandle = true) (b : Bindings) (args : List Argument) :
    Settles (l.make r s b args) 0 Keeps := by
  refine (Signature.settles_call hs _ _ _).bind fun returned k hk => ?_
  exact (hk.settles_toHandle ho).bind fun h k hk => Entity.settles_ofHandle r hk

theorem settles_identity (hints : Hints) : Settles (l.identity hints) 0 Keeps :=
  (settles_result _).step fun _ => l.settles_make (by simp [Signature.catalog]) rfl _ _

theorem settles_clamp (lower upper : Value) (hints : Hints) :
    Settles (l.clamp lower upper hints) 0 Keeps :=
  (settles_result _).step fun _ => l.settles_make (by simp [Signature.catalog]) rfl _ _

theorem settles_boundedSum (lower upper : Value) (hints : Hints) :
    Settles (l.boundedSum lower upper hints) 0 Keeps :=
  (settles_result _).step fun _ => l.settles_make (by simp [Signature.catalog]) rfl _ _

theorem settles_boundedMean (lower upper : Value) (n : Nat) (hints : Hints) :
    Settles (l.boundedMean lower upper n hints) 0 Keeps := by
  refine (settles_result _).step fun _ => (settles_result _).step fun _ => ?_
  exact l.settles_make (by simp [Signature.catalog]) rfl _ _

theorem settles_count (hints : Hints) : Settles (l.count hints) 0 Keeps :=
  (settles_result _).step fun _ => l.settles_make (by simp [Signature.catalog]) rfl _ _

theorem settles_laplace (scale : Value) (hints : Hints) :
    Settles (l.laplace scale hints) 0 Keeps :=
  (settles_result _).step fun _ => l.settles_make (by simp [Signature.catalog]) rfl _ _

theorem settles_gaussian (scale : Value) (hints : Hints) :
    Settles (l.gaussian scale hints) 0 Keeps :=
  (settles_result _).step fun _ => l.settles_make (by simp [Signature.catalog]) rfl _ _

theorem settles_geometric (scale : Binary .double) (hints : Hints) :
    Settles (l.geometric scale hints) 0 Keeps :=
  (settles_result _).step fun _ => l.settles_make (by simp [Signature.catalog]) rfl _ _

theorem settles_makeFrom {r : Role} {s : Signature} (hs : s ∈ Signature.catalog)
    (ho : s.returns.isHandle = true) (b : Bindings) (args : List Argument)
    (children : List Handle) :
    Settles (l.makeFrom r s b args children) 0 fun e => Adopts children e.handle := by
  refine (l.settles_make hs ho b args).bind fun e k hk => .pure ?_
  have : k = e.handle.allocationCount := hk
  rw [Adopts, Entity.adopt, Handle.allocationCount_adopt]
  omega

theorem settles_chainInto {r : Role} (s : Signature) (hs : s ∈ Signature.catalog)
    (ho : s.returns.isHandle = true) (first : Entity .transformation) (second : Entity r) :
    Settles (l.chainInto s first second) 0 fun e => Adopts [second.handle, first.handle] e.handle :=
  (settles_result _).step fun _ => l.settles_makeFrom hs ho _ _ _

end Library

/-! ## Consuming operations -/

/-- The operation makes an entity that owns the handles of the inputs, or hands the inputs back. -/
def Consumes {ι α : Type} (c : Consuming ι α) (inputs : ι) (children : List Handle)
    (handle : α → Handle) : Prop := ∀ l,
  match c l with
  | (.ok x, l') => Adopts children (handle x) (l'.live - l.live)
  | (.error r, l') => r.inputs = inputs ∧ l'.live = l.live

omit [Elementary] in
theorem consumes_ofAction {ι α : Type} {a : Action α} (inputs : ι) {children : List Handle}
    {handle : α → Handle} (h : Settles a 0 fun x => Adopts children (handle x)) :
    Consumes (.ofAction inputs a) inputs children handle := by
  intro l
  have hl := h l
  unfold Consuming.ofAction
  generalize a l = out at hl
  rcases out with ⟨e | x, l'⟩
  · simpa using hl
  · simpa using hl

omit [Elementary] in
theorem Consumes.mapInputs {ι κ α : Type} {c : Consuming ι α} {inputs : ι} {children : List Handle}
    {handle : α → Handle} (h : Consumes c inputs children handle) (f : ι → κ) :
    Consumes (c.mapInputs f) (f inputs) children handle := by
  intro l
  have hl := h l
  unfold Consuming.mapInputs
  generalize c l = out at hl
  rcases out with ⟨e | x, l'⟩
  · exact ⟨by rw [hl.1], hl.2⟩
  · exact hl

omit [Elementary] in
theorem Consumes.map {ι α β : Type} {c : Consuming ι α} {inputs : ι} {children : List Handle}
    {handle : α → Handle} (h : Consumes c inputs children handle) (f : α → β) {handle' : β → Handle}
    (hf : ∀ x, handle' (f x) = handle x) : Consumes (f <$> c) inputs children handle' := by
  intro l
  have hl := h l
  rw [run_map]
  generalize c l = out at hl
  rcases out with ⟨e | x, l'⟩
  · exact hl
  · simpa only [hf] using hl

namespace Library

variable (l : Library)

theorem consumes_chain (first second : AnyEntity) :
    Consumes (l.chain first second) (first, second) [second.handle, first.handle]
      AnyEntity.handle := by
  cases first with
  | measurement m => exact fun _ => ⟨rfl, rfl⟩
  | transformation t =>
    cases second with
    | transformation u =>
      have chained := consumes_ofAction (t, u)
        (l.settles_chainInto .chainTransformations (by simp [Signature.catalog]) rfl t u)
      exact (chained.mapInputs _).map _ fun _ => rfl
    | measurement m =>
      have chained := consumes_ofAction (t, m)
        (l.settles_chainInto .chainMeasurement (by simp [Signature.catalog]) rfl t m)
      exact (chained.mapInputs _).map _ fun _ => rfl

theorem consumes_compose (ms : List (Entity .measurement)) (policy : CompositionPolicy) :
    Consumes (l.compose ms policy) ms (ms.map Entity.handle) Entity.handle := by
  refine consumes_ofAction _ ((settles_result _).step fun _ => ?_)
  exact l.settles_makeFrom (by simp [Signature.catalog]) rfl _ _ _

theorem consumes_amplify (m : Entity .measurement) (population : Nat) (records measure : TypeHint) :
    Consumes (l.amplify m population records measure) m [m.handle] Entity.handle := by
  refine consumes_ofAction _ ((settles_result _).step fun _ => (settles_result _).step fun _ => ?_)
  exact (settles_result _).step fun _ => l.settles_makeFrom (by simp [Signature.catalog]) rfl _ _ _

theorem consumes_fixDelta (m : Entity .measurement) (delta : Binary .double) :
    Consumes (l.fixDelta m delta) m [m.handle] Entity.handle := by
  refine consumes_ofAction _ ((settles_result _).step fun _ => ?_)
  exact l.settles_makeFrom (by simp [Signature.catalog]) rfl _ _ _

end Library

end PrivateRelease.Host
