import PrivateRelease.Proofs.Boundary.Determinism
import PrivateRelease.Proofs.Host.Agreement
import PrivateRelease.Proofs.Host.Conservation

/-!
# Determined actions

Whatever the host does, its outcome is told by the tape of draws. Neither the number of live allocations
nor the last error is ever looked at, and only invoking a measurement draws, so everything else leaves
the tape as it was.
-/

namespace PrivateRelease.Host

open Boundary

variable {α : Type} {still : Prop}

/-! ## Clean-up -/

theorem determined_ofExcept (r : Except Failure α) : Determined still (Action.ofExcept r) :=
  .of_evaluates fun t => evaluates_ofExcept r t

theorem determined_andAlways {a : Action α} {cleanUp : StateM Ledger Unit} (ha : Determined still a)
    (hc : KeepsTape cleanUp) : Determined still (a.andAlways cleanUp) := by
  intro t
  obtain ⟨r, t', evaluates, kept⟩ := ha t
  exact ⟨r, t', evaluates_andAlways evaluates hc, kept⟩

theorem determined_orElseRun {a : Action α} {cleanUp : StateM Ledger Unit} (ha : Determined still a)
    (hc : KeepsTape cleanUp) : Determined still (a.orElseRun cleanUp) := by
  intro t
  obtain ⟨r, t', evaluates, kept⟩ := ha t
  exact ⟨r, t', evaluates_orElseRun evaluates hc, kept⟩

variable [Elementary]

/-! ## Calls -/

theorem determined_invoke {symbol blob : String} {args : List Payload}
    (h : still → ∀ entry, Export.lookup symbol = some entry → entry ≠ .measurementInvoke) :
    Determined still (invoke symbol blob args) := by
  unfold invoke
  cases he : Export.lookup symbol with
  | none => exact .throw _
  | some entry =>
    dsimp only
    split
    · exact .throw _
    exact Envelope.determined_ofCall ((entry.determined_body _ _).mono fun hs => h hs entry he)

omit [Elementary] in
theorem determined_settle (e : Envelope) : Determined still (settle e) := by
  unfold settle
  cases e.isOk with
  | true => exact .of_evaluates (r := fun _ => .ok e.payload) fun _ _ hl => ⟨rfl, hl⟩
  | false =>
    cases e.message with
    | none => exact .of_evaluates (r := fun _ => .error _) fun _ _ hl => ⟨rfl, hl⟩
    | some message => exact .of_evaluates (r := fun _ => .error _) fun _ _ hl => ⟨rfl, hl⟩

theorem determined_perform {symbol blob : String} {args : List Payload}
    (h : still → ∀ entry, Export.lookup symbol = some entry → entry ≠ .measurementInvoke) :
    Determined still (perform symbol blob args) :=
  (determined_invoke h).bind determined_settle

/-- The calls that the host makes on its own account. -/
theorem determined_performAs {symbol blob : String} {args : List Payload} {entry : Entry}
    (h : Export.lookup symbol = some entry) (he : entry ≠ .measurementInvoke) :
    Determined still (perform symbol blob args) :=
  determined_perform fun _ _ h' => Option.some.inj (h.symm.trans h') ▸ he

theorem determined_takeText (p : Payload) : Determined still (takeText p) := by
  unfold takeText
  split
  · exact (determined_performAs Export.lookup_textFree nofun).bind fun _ => .pure _
  · exact .throw _

/-! ## Frames -/

namespace Frame

theorem determined_makeObject (v : Value) (d : Descriptor) : Determined still (makeObject v d) := by
  refine (determined_ofExcept _).bind fun m => ?_
  exact (determined_performAs Export.lookup_sliceAsObject nofun).bind fun _ => determined_ofExcept _

theorem determined_push (f : Frame) (b : Bindings) (p : Parameter) (a : Argument) :
    Determined still (f.push b p a) := by
  unfold push
  split
  · exact (determined_ofExcept _).bind fun _ => (determined_ofExcept _).bind fun _ => .pure _
  · exact (determined_ofExcept _).bind fun _ => (determined_ofExcept _).bind fun _ => .pure _
  · exact (determined_ofExcept _).bind fun _ => (determined_makeObject _ _).bind fun _ => .pure _
  · exact .pure _
  · exact .pure _
  · exact .throw _

theorem determined_pushAll (b : Bindings) (args : List (Parameter × Argument)) (f : Frame) :
    Determined still (pushAll b args f) := by
  induction args generalizing f with
  | nil => exact .pure f
  | cons arg args ih =>
    exact (determined_orElseRun (f.determined_push b _ _) (keepsTape_dropAll _)).bind ih

end Frame

/-! ## Reading objects -/

theorem determined_viewing {object : Payload} {k : Memory → Action α}
    (hk : ∀ m, Determined still (k m)) : Determined still (viewing object k) := by
  refine (determined_performAs Export.lookup_objectAsSlice nofun).bind fun p => ?_
  refine (determined_ofExcept _).bind fun view => ?_
  split
  · exact determined_andAlways (hk _) (keepsTape_drop view)
  · exact .throw _

mutual

theorem determined_readObject (d : Descriptor) (object : Payload) :
    Determined still (readObject d object) := by
  match d with
  | .tuple items =>
    rw [readObject]
    refine determined_viewing fun m => (determined_ofExcept _).bind fun members => ?_
    split
    · exact .throw _
    · exact (determined_readObjects items members).bind fun _ => .pure _
  | .primitive p =>
    rw [readObject]
    exact determined_viewing fun _ => determined_ofExcept _
  | .generic name args =>
    rw [readObject]
    exact determined_viewing fun _ => determined_ofExcept _

theorem determined_readObjects (ds : List Descriptor) (rs : List (Option Reference)) :
    Determined still (readObjects ds rs) := by
  match ds, rs with
  | d :: ds, r :: rs =>
    simp only [readObjects]
    refine (determined_readObject d _).bind fun v => ?_
    exact (determined_readObjects ds rs).bind fun _ => .pure _
  | [], _ =>
    simp only [readObjects]
    exact .pure _
  | _ :: _, [] =>
    simp only [readObjects]
    exact .pure _

end

theorem determined_read (h : Handle) : Determined still h.read := by
  refine (determined_performAs Export.lookup_objectType nofun).bind fun p => ?_
  refine (determined_takeText p).bind fun name => ?_
  split
  · exact determined_readObject _ _
  · exact .throw _

/-! ## Operations -/

theorem Returned.determined_ofPayload (p : Payload) (o : Outcome) :
    Determined still (ofPayload p o) := by
  cases o with
  | transformation => exact (determined_ofExcept _).bind fun _ => .pure _
  | measurement => exact (determined_ofExcept _).bind fun _ => .pure _
  | object => exact (determined_ofExcept _).bind fun _ => .pure _
  | view => exact (determined_ofExcept _).bind fun _ => .pure _
  | value =>
    refine (determined_ofExcept _).bind fun object => ?_
    exact (determined_andAlways (determined_read object) (keepsTape_drop object)).bind fun _ =>
      .pure _
  | bool => exact (determined_ofExcept _).bind fun _ => .pure _
  | float => exact (determined_ofExcept _).bind fun _ => .pure _
  | text => exact (determined_takeText p).bind fun _ => .pure _
  | unit => exact .pure _

namespace Signature

omit [Elementary] in
theorem operation_of_measurementInvoke :
    ∀ e ∈ Export.all, e.entry = .measurementInvoke → e.operation = "measurement_invoke" := by
  decide +kernel

/-- A call draws only if it invokes a measurement. -/
theorem determined_call {s : Signature} (hs : s ∈ catalog) (h : still → s.name ≠ "measurement_invoke")
    (features : Features) (b : Bindings) (args : List Argument) :
    Determined still (s.call features b args) := by
  refine (determined_ofExcept _).bind fun _ => ?_
  split
  · exact .throw _
  refine (determined_ofExcept _).bind fun types => ?_
  refine (Frame.determined_pushAll b _ .empty).bind fun frame => ?_
  refine determined_andAlways ?_ (keepsTape_dropAll _)
  refine (determined_invoke fun draws entry he => ?_).bind fun e => ?_
  · obtain ⟨e, mem, -, name, rfl, -⟩ := exists_of_lookup hs he
    intro drawing
    exact h draws (name ▸ operation_of_measurementInvoke e mem drawing)
  · exact (determined_settle e).bind fun p => Returned.determined_ofPayload p _

end Signature

namespace Entity

variable {r : Role}

theorem determined_describe (r : Role) (h : Handle) (f : EntityField) :
    Determined still (describe r h f) :=
  (Signature.determined_call (describe_mem r) (fun _ => by cases r <;> decide) _ _ _).bind fun _ =>
    determined_ofExcept _

theorem determined_describeType (r : Role) (h : Handle) (f : EntityField) :
    Determined still (describeType r h f) :=
  (determined_describe r h f).bind fun _ => determined_ofExcept _

theorem determined_readDescriptors (r : Role) (h : Handle) :
    Determined still (readDescriptors r h) := by
  refine (determined_describe r h _).bind fun _ => (determined_describe r h _).bind fun _ => ?_
  refine (determined_describe r h _).bind fun _ => (determined_describe r h _).bind fun _ => ?_
  refine (determined_describeType r h _).bind fun _ => ?_
  refine (determined_describeType r h _).bind fun _ => ?_
  exact (determined_describeType r h _).bind fun _ => .pure _

theorem determined_ofHandle (r : Role) (h : Handle) : Determined still (ofHandle r h) := by
  refine determined_orElseRun ?_ (keepsTape_drop h)
  exact (determined_readDescriptors r h).bind fun d => (determined_ofExcept _).bind fun _ => .pure _

theorem determined_invoke (e : Entity r) (v : Value) : Determined False (e.invoke v) := by
  have hs : r.invoke ∈ Signature.catalog := by cases r <;> simp [Role.invoke, Signature.catalog]
  exact (Signature.determined_call hs False.elim _ _ _).bind fun _ => determined_ofExcept _

theorem determined_boundAt (e : Entity r) (d : Value) : Determined still (e.boundAt d) := by
  have hs : r.map ∈ Signature.catalog := by cases r <;> simp [Role.map, Signature.catalog]
  refine (determined_ofExcept _).bind fun _ => ?_
  exact (Signature.determined_call hs (fun _ => by cases r <;> decide) _ _ _).bind fun _ =>
    determined_ofExcept _

theorem determined_check (e : Entity r) (dIn dOut : Value) :
    Determined still (e.check dIn dOut) := by
  have hs : r.check ∈ Signature.catalog := by cases r <;> simp [Role.check, Signature.catalog]
  refine (determined_ofExcept _).bind fun _ => ?_
  exact (Signature.determined_call hs (fun _ => by cases r <;> decide) _ _ _).bind fun _ =>
    determined_ofExcept _

theorem determined_map (e : Entity r) (d : Value) : Determined still (e.map d) := by
  cases r with
  | transformation => exact determined_boundAt e d
  | measurement =>
    simp only [map]
    split
    · exact .throw _
    · exact determined_boundAt e d

theorem determined_mapCurve (m : Entity .measurement) (d : Value) :
    Determined still (m.mapCurve d) := by
  have hs : Signature.measurementMapCurve ∈ Signature.catalog := by simp [Signature.catalog]
  unfold mapCurve
  split
  · refine (determined_ofExcept _).bind fun _ => ?_
    refine (Signature.determined_call hs (fun _ => by decide) _ _ _).bind fun _ => ?_
    exact (determined_ofExcept _).bind fun _ => .pure _
  · exact .throw _

end Entity

namespace Curve

theorem determined_epsilon (c : Curve) (delta : Binary .double) :
    Determined still (c.epsilon delta) := by
  have hs : Signature.curveEpsilon ∈ Signature.catalog := by simp [Signature.catalog]
  exact (Signature.determined_call hs (fun _ => by decide) _ _ _).bind fun _ =>
    determined_ofExcept _

theorem determined_toText (c : Curve) : Determined still c.toText := by
  have hs : Signature.objectText ∈ Signature.catalog := by simp [Signature.catalog]
  exact (Signature.determined_call hs (fun _ => by decide) _ _ _).bind fun _ =>
    determined_ofExcept _

end Curve

/-! ## The library -/

namespace Consuming

omit [Elementary] in
theorem ofAction_apply {ι : Type} (inputs : ι) (a : Action α) (m : Ledger) :
    Consuming.ofAction inputs a m = ((a m).1.mapError fun failure => ⟨failure, inputs⟩, (a m).2) := by
  unfold Consuming.ofAction
  rcases a m with ⟨_ | _, _⟩ <;> rfl

omit [Elementary] in
theorem mapInputs_apply {ι κ : Type} (c : Consuming ι α) (f : ι → κ) (m : Ledger) :
    c.mapInputs f m = ((c m).1.mapError fun r => ⟨r.failure, f r.inputs⟩, (c m).2) := by
  unfold Consuming.mapInputs
  rcases c m with ⟨_ | _, _⟩ <;> rfl

end Consuming

namespace Library

variable (l : Library)

theorem determined_make {r : Role} {s : Signature} (hs : s ∈ Signature.makers) (b : Bindings)
    (args : List Argument) : Determined still (l.make r s b args) := by
  have names : ∀ s ∈ Signature.makers, s.name ≠ "measurement_invoke" := by decide
  refine (Signature.determined_call (List.mem_filter.mp hs).1 (fun _ => names s hs) _ _ _).bind ?_
  exact fun _ => (determined_ofExcept _).bind fun h => Entity.determined_ofHandle r h

theorem determined_makeFrom {r : Role} {s : Signature} (hs : s ∈ Signature.makers) (b : Bindings)
    (args : List Argument) (children : List Handle) :
    Determined still (l.makeFrom r s b args children) :=
  (l.determined_make hs b args).bind fun _ => .pure _

omit [Elementary] in
theorem determined_ofAction {ι : Type} (inputs : ι) {a : Action α} (ha : Determined still a) :
    Determined still (Consuming.ofAction inputs a) := ha.mapError (Consuming.ofAction_apply inputs a)

omit [Elementary] in
theorem determined_mapInputs {ι κ : Type} (f : ι → κ) {c : Consuming ι α}
    (hc : Determined still c) : Determined still (c.mapInputs f) :=
  hc.mapError (c.mapInputs_apply f)

theorem determined_chainInto {r : Role} {s : Signature} (hs : s ∈ Signature.makers)
    (first : Entity .transformation) (second : Entity r) :
    Determined still (l.chainInto s first second) :=
  (determined_ofExcept _).bind fun _ => l.determined_makeFrom hs _ _ _

theorem determined_chainTransformations (first second : Entity .transformation) :
    Determined still (l.chainTransformations first second) :=
  determined_ofAction _ (l.determined_chainInto (by decide) first second)

theorem determined_chainMeasurement (first : Entity .transformation)
    (second : Entity .measurement) : Determined still (l.chainMeasurement first second) :=
  determined_ofAction _ (l.determined_chainInto (by decide) first second)

theorem determined_chain (first second : AnyEntity) : Determined still (l.chain first second) := by
  cases first with
  | measurement m => exact determined_ofAction _ (.throw _)
  | transformation t =>
    cases second with
    | transformation u =>
      exact (determined_mapInputs _ (l.determined_chainTransformations t u)).map _
    | measurement m => exact (determined_mapInputs _ (l.determined_chainMeasurement t m)).map _

theorem determined_compose (parts : List (Entity .measurement)) (policy : CompositionPolicy) :
    Determined still (l.compose parts policy) := by
  refine determined_ofAction _ ((determined_ofExcept _).bind fun _ => ?_)
  exact l.determined_makeFrom (by decide) _ _ _

theorem determined_amplify (part : Entity .measurement) (population : Nat)
    (records measure : TypeHint) :
    Determined still (l.amplify part population records measure) := by
  refine determined_ofAction _ ((determined_ofExcept _).bind fun _ => ?_)
  refine (determined_ofExcept _).bind fun _ => (determined_ofExcept _).bind fun _ => ?_
  exact l.determined_makeFrom (by decide) _ _ _

theorem determined_fixDelta (part : Entity .measurement) (delta : Binary .double) :
    Determined still (l.fixDelta part delta) := by
  refine determined_ofAction _ ((determined_ofExcept _).bind fun _ => ?_)
  exact l.determined_makeFrom (by decide) _ _ _

end Library

theorem Construction.determined_run (l : Library) (hints : Hints) (c : Construction) :
    Determined still (c.run l hints) := by
  cases c with
  | boundedMean lower upper n =>
    refine ((determined_ofExcept _).bind fun _ => (determined_ofExcept _).bind fun _ => ?_).map _
    exact l.determined_make (by decide) _ _
  | _ => exact ((determined_ofExcept _).bind fun _ => l.determined_make (by decide) _ _).map _

end PrivateRelease.Host
