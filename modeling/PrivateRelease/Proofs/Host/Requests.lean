import PrivateRelease.Proofs.Host.Combinations

/-!
# Requests

Every call of the library comes to one call of an entry point: the types and payloads are put together
without a call, then the entry point is invoked with them once, and the rest reads its envelope.
-/

namespace PrivateRelease.Host

open Boundary

/-- A call of the library, which makes an entity from values or from other entities. -/
inductive Request where
  | make (c : Construction) (hints : Hints)
  | chain (first second : AnyEntity)
  | chainTransformations (first second : Entity .transformation)
  | chainMeasurement (first : Entity .transformation) (second : Entity .measurement)
  | compose (parts : List (Entity .measurement)) (policy : CompositionPolicy)
  | amplify (part : Entity .measurement) (population : Nat) (records measure : TypeHint)
  | fixDelta (part : Entity .measurement) (delta : Binary .double)

/-- The operation that a request comes to. -/
structure Order where
  role : Role
  signature : Signature
  bindings : Bindings
  arguments : List Argument
  children : List Handle

/-- What is handed to the native side. -/
structure NativeCall where
  signature : Signature
  types : List Descriptor
  payloads : List Payload

namespace NativeCall

def symbol (c : NativeCall) : String := c.signature.symbol c.types

/-- The text of the type arguments. -/
def blob (c : NativeCall) : String := Descriptor.argsText c.types

end NativeCall

def AnyEntity.ofRole : (r : Role) → Entity r → AnyEntity
  | .transformation, e => transformation e
  | .measurement, e => measurement e

namespace Construction

/-- An operation on values, which takes over nothing. -/
def given (r : Role) (s : Signature) (b : Bindings) (vs : List Value) : Order :=
  ⟨r, s, b, vs.map .value, []⟩

def order (hints : Hints) : Construction → Except Failure Order
  | identity => do
    return given .transformation .identity [("T", ← hints.require "T")] []
  | clamp lower upper => do
    return given .transformation .clamp [("T", ← hints.resolve "T" lower.inferred)] [lower, upper]
  | boundedSum lower upper => do
    return given .transformation .boundedSum [("T", ← hints.resolve "T" lower.inferred)]
      [lower, upper]
  | boundedMean lower upper n => do
    let n ← Library.size "n" n
    return given .transformation .boundedMean (← Library.meanBindings lower hints)
      [lower, upper, .int n]
  | count => do
    return given .transformation .count [("TIA", ← hints.require "TIA")] []
  | laplace scale => do
    return given .measurement .laplace [("T", ← hints.resolve "T" scale.inferred)] [scale]
  | gaussian scale => do
    return given .measurement .gaussian [("T", ← hints.resolve "T" scale.inferred)] [scale]
  | geometric scale => do
    return given .measurement .geometric [("T", ← hints.resolve "T" (.ok (.integer .i32)))]
      [.float scale]

end Construction

namespace Request

/-- The second entity, then the first. -/
def chained {r : Role} (s : Signature) (first : Entity .transformation) (second : Entity r) :
    Except Failure Order := do
  expectBoundary first.descriptors second.descriptors
  let handles := [second.handle, first.handle]
  return ⟨r, s, [], handles.map .handle, handles⟩

def order : Request → Except Failure Order
  | make c hints => c.order hints
  | chain (.measurement m) _ => .error (.mismatch (.afterMeasurement m.descriptors.outputDistance))
  | chain (.transformation t) (.transformation u) => chained .chainTransformations t u
  | chain (.transformation t) (.measurement m) => chained .chainMeasurement t m
  | chainTransformations first second => chained .chainTransformations first second
  | chainMeasurement first second => chained .chainMeasurement first second
  | compose parts policy => do
    expectCompatible parts
    let (rule, parameter) := policy.selector
    let handles := parts.map Entity.handle
    return ⟨.measurement, .compose, [],
      [.handles handles, .value (.int rule), .value (.float parameter)], handles⟩
  | amplify part population records measure => do
    let n ← Library.size "population_size" population
    let records ← records.toDescriptor
    let measure ← measure.toDescriptor
    return ⟨.measurement, .amplify, [("DIA", records), ("MO", measure)],
      [.handle part.handle, .value (.int n)], [part.handle]⟩
  | fixDelta part delta => do
    let (measure, carrier) ← curveMeasure part
    return ⟨.measurement, .fixDelta, [("MO", measure), ("T", carrier)],
      [.handle part.handle, .value (.float delta)], [part.handle]⟩

end Request

variable [Elementary]

def Request.run (l : Library) : Request → Action AnyEntity
  | make c hints => c.run l hints
  | chain first second => (l.chain first second).toAction
  | chainTransformations first second =>
    .transformation <$> (l.chainTransformations first second).toAction
  | chainMeasurement first second => .measurement <$> (l.chainMeasurement first second).toAction
  | compose parts policy => .measurement <$> (l.compose parts policy).toAction
  | amplify part population records measure =>
    .measurement <$> (l.amplify part population records measure).toAction
  | fixDelta part delta => .measurement <$> (l.fixDelta part delta).toAction

namespace Order

omit [Elementary] in
/-- The types and payloads of the operation, put together without a call. -/
def native (l : Library) (o : Order) : Except Failure NativeCall := do
  let (types, frame) ← o.signature.prepared l.features o.bindings o.arguments
  return ⟨o.signature, types, frame.payloads⟩

def run (l : Library) (o : Order) : Action AnyEntity :=
  AnyEntity.ofRole o.role <$>
    l.makeFrom o.role o.signature o.bindings o.arguments o.children

/-- Makes the entity of what the entry point returned. -/
def receive (o : Order) (e : Envelope) : Action AnyEntity := do
  let returned ← Returned.ofEnvelope e o.signature.returns
  let entity ← Entity.ofHandle o.role (← Action.ofExcept returned.toHandle)
  return AnyEntity.ofRole o.role (entity.adopt o.children)

end Order

/-! ## Frames without objects -/

namespace Frame

variable {b : Bindings}

theorem push_eq_pushed (f : Frame) {p : Parameter} (hp : p.passing ≠ .object) (a : Argument) :
    f.push b p a = Action.ofExcept (f.pushed b p a) := by
  unfold push pushed
  generalize p.passing = passing at hp
  cases passing with
  | object => exact absurd rfl hp
  | byValue =>
    cases a with
    | value v => cases template p.shape b with
      | error _ => rfl
      | ok d => simp only [ofExcept_bind]; rfl
    | _ => rfl
  | byReference =>
    cases a with
    | value v => cases template p.shape b with
      | error _ => rfl
      | ok d => simp only [ofExcept_bind]; rfl
    | _ => rfl
  | handle => cases a <;> rfl
  | handles => cases a <;> rfl

omit [Elementary] in
/-- Only objects are made for a call and held in its frame. -/
theorem temporaries_pushed {f f' : Frame} {p : Parameter} (hp : p.passing ≠ .object) {a : Argument}
    (h : f.pushed b p a = .ok f') : f'.temporaries = f.temporaries := by
  unfold pushed at h
  split at h
  · obtain ⟨_, _, h⟩ := bind_eq_ok_iff.mp h
    obtain ⟨_, _, h⟩ := bind_eq_ok_iff.mp h
    cases h
    rfl
  · obtain ⟨_, _, h⟩ := bind_eq_ok_iff.mp h
    obtain ⟨_, _, h⟩ := bind_eq_ok_iff.mp h
    cases h
    rfl
  · next passing => exact absurd passing hp
  · cases h
    rfl
  · cases h
    rfl
  · cases h

omit [Elementary] in
theorem temporaries_pushedAll {args : List (Parameter × Argument)} {f f' : Frame}
    (hp : ∀ x ∈ args, x.1.passing ≠ .object) (h : pushedAll b args f = .ok f') :
    f'.temporaries = f.temporaries := by
  induction args generalizing f with
  | nil =>
    cases h
    rfl
  | cons x args ih =>
    obtain ⟨hx, hp⟩ := List.forall_mem_cons.mp hp
    obtain ⟨g, hg, h⟩ := bind_eq_ok_iff.mp h
    rw [ih hp h, temporaries_pushed hx hg]

theorem pushAll_eq_pushedAll {args : List (Parameter × Argument)} {f : Frame}
    (hp : ∀ x ∈ args, x.1.passing ≠ .object) (hf : f.temporaries = []) :
    pushAll b args f = Action.ofExcept (pushedAll b args f) := by
  induction args generalizing f with
  | nil => rfl
  | cons x args ih =>
    obtain ⟨p, a⟩ := x
    obtain ⟨hx, hp⟩ := List.forall_mem_cons.mp hp
    rw [pushAll, pushedAll, drop, hf, push_eq_pushed f hx]
    cases hg : f.pushed b p a with
    | error _ => rfl
    | ok g => exact ih hp ((temporaries_pushed hx hg).trans hf)

end Frame

/-- Without objects among its arguments a call prepares, invokes and reads the envelope. -/
theorem Signature.call_eq {s : Signature} (hs : ∀ p ∈ s.parameters, p.passing ≠ .object)
    (features : Features) (b : Bindings) (args : List Argument) :
    s.call features b args = Action.ofExcept (s.prepared features b args) >>= fun made =>
      invoke (s.symbol made.1) (Descriptor.argsText made.1) made.2.payloads >>= fun e =>
        Returned.ofEnvelope e s.returns := by
  have objects : ∀ x ∈ s.parameters.zip args, x.1.passing ≠ .object := fun x hx =>
    hs x.1 (List.of_mem_zip hx).1
  unfold call prepared
  cases features.require s.features s.qualifiedName with
  | error _ => rfl
  | ok _ =>
    by_cases hn : args.length = s.parameters.length
    case neg =>
      simp only [ne_eq, hn, not_false_eq_true, if_true]
      rfl
    simp only [ne_eq, hn, not_true_eq_false, if_false]
    cases s.types b with
    | error _ => rfl
    | ok types =>
      have pushed := Frame.pushAll_eq_pushedAll (b := b) (f := .empty) objects rfl
      cases hp : Frame.pushedAll b (s.parameters.zip args) .empty with
      | error _ =>
        rw [hp] at pushed
        show (Frame.pushAll b (s.parameters.zip args) .empty >>= _) = _
        rw [pushed]
        rfl
      | ok frame =>
        rw [hp] at pushed
        have none : frame.temporaries = [] := Frame.temporaries_pushedAll objects hp
        show (Frame.pushAll b (s.parameters.zip args) .empty >>= _) = _
        rw [pushed]
        show Action.andAlways _ frame.drop = _
        rw [Frame.drop, none]
        rfl

/-! ## One native call -/

variable {l : Library}

theorem Order.run_eq_native {o : Order} (hs : ∀ p ∈ o.signature.parameters, p.passing ≠ .object) :
    o.run l = Action.ofExcept (o.native l) >>= fun c =>
      invoke c.symbol c.blob c.payloads >>= o.receive := by
  unfold run Library.makeFrom Library.make native
  rw [Signature.call_eq hs, map_eq_pure_bind]
  cases o.signature.prepared l.features o.bindings o.arguments with
  | error _ => rfl
  | ok made =>
    simp only [bind_assoc, pure_bind]
    rfl

theorem Library.make_eq_makeFrom (r : Role) (s : Signature) (b : Bindings) (args : List Argument) :
    l.make r s b args = l.makeFrom r s b args [] := by
  have unchanged : ∀ e : Entity r, e.adopt [] = e := by
    rintro ⟨⟨holding, children⟩, _, _⟩
    simp [Entity.adopt, Handle.adopt]
  simp [makeFrom, unchanged]

/-- A step of the host alone comes before the order as it comes before the operation. -/
theorem run_eq_chosen {r : Role} {τ : Type} {x : Except Failure τ} {a : τ → Action (Entity r)}
    {o : τ → Except Failure Order} (h : ∀ y, AnyEntity.ofRole r <$> a y =
      Action.ofExcept (o y) >>= fun o => o.run l) :
    AnyEntity.ofRole r <$> (Action.ofExcept x >>= a) =
      Action.ofExcept (x >>= o) >>= fun o => o.run l := by
  cases x with
  | error _ => rfl
  | ok y => exact h y

theorem Construction.run_given (r : Role) (s : Signature) (b : Bindings) (vs : List Value) :
    AnyEntity.ofRole r <$> l.make r s b (vs.map .value) =
      Action.ofExcept (pure (given r s b vs)) >>= fun o => o.run l := by
  rw [Library.make_eq_makeFrom]
  rfl

theorem Construction.run_eq_order (c : Construction) (hints : Hints) :
    c.run l hints = Action.ofExcept (c.order hints) >>= fun o => o.run l := by
  cases c with
  | identity => exact run_eq_chosen fun t => run_given .transformation .identity [("T", t)] []
  | clamp lower upper =>
    exact run_eq_chosen fun t => run_given .transformation .clamp [("T", t)] [lower, upper]
  | boundedSum lower upper =>
    exact run_eq_chosen fun t => run_given .transformation .boundedSum [("T", t)] [lower, upper]
  | boundedMean lower upper n =>
    exact run_eq_chosen fun n => run_eq_chosen fun b =>
      run_given .transformation .boundedMean b [lower, upper, .int n]
  | count => exact run_eq_chosen fun t => run_given .transformation .count [("TIA", t)] []
  | laplace scale =>
    exact run_eq_chosen fun t => run_given .measurement .laplace [("T", t)] [scale]
  | gaussian scale =>
    exact run_eq_chosen fun t => run_given .measurement .gaussian [("T", t)] [scale]
  | geometric scale =>
    exact run_eq_chosen fun t => run_given .measurement .geometric [("T", t)] [.float scale]

namespace Request

theorem run_chained {r : Role} (s : Signature) (first : Entity .transformation)
    (second : Entity r) : AnyEntity.ofRole r <$> l.chainInto s first second =
      Action.ofExcept (chained s first second) >>= fun o => o.run l :=
  run_eq_chosen fun _ => rfl

theorem run_eq_order (q : Request) :
    q.run l = Action.ofExcept q.order >>= fun o => o.run l := by
  cases q with
  | make c hints => exact c.run_eq_order hints
  | chainTransformations first second =>
    rw [run, Library.chainTransformations, Consuming.toAction_ofAction]
    exact run_chained (r := .transformation) .chainTransformations first second
  | chainMeasurement first second =>
    rw [run, Library.chainMeasurement, Consuming.toAction_ofAction]
    exact run_chained (r := .measurement) .chainMeasurement first second
  | chain first second =>
    cases first with
    | measurement m =>
      rw [run, Library.chain, Consuming.toAction_ofAction]
      rfl
    | transformation t =>
      cases second with
      | transformation u =>
        show Consuming.toAction (AnyEntity.transformation <$>
          (l.chainTransformations t u).mapInputs _) = _
        rw [Consuming.toAction_map, Consuming.toAction_mapInputs, Library.chainTransformations,
          Consuming.toAction_ofAction]
        exact run_chained (r := .transformation) .chainTransformations t u
      | measurement m =>
        show Consuming.toAction (AnyEntity.measurement <$>
          (l.chainMeasurement t m).mapInputs _) = _
        rw [Consuming.toAction_map, Consuming.toAction_mapInputs, Library.chainMeasurement,
          Consuming.toAction_ofAction]
        exact run_chained (r := .measurement) .chainMeasurement t m
  | compose parts policy =>
    rw [run, Library.compose, Consuming.toAction_ofAction]
    exact run_eq_chosen (r := .measurement) fun _ => rfl
  | amplify part population records measure =>
    rw [run, Library.amplify, Consuming.toAction_ofAction]
    exact run_eq_chosen (r := .measurement) fun n => run_eq_chosen fun d => run_eq_chosen fun _ => rfl
  | fixDelta part delta =>
    rw [run, Library.fixDelta, Consuming.toAction_ofAction]
    exact run_eq_chosen (r := .measurement) fun _ => rfl

end Request

end PrivateRelease.Host
