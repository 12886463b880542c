import PrivateRelease.Proofs.Host.Determinism
import PrivateRelease.Proofs.Host.Workspaces

/-!
# Consuming on success

An operation that combines entities takes them over only if it succeeds. After a failure nothing is
different but the last error, which nothing looks at: the inputs are there as they were, and whatever is
done with them or with anything else from then on gives what it would have given without the call.
-/

namespace PrivateRelease.Host

open Boundary

/-! ## Sessions -/

/-- What comes out is told by the tape, and so is the tape that is left. -/
def OfTape {β : Type} (s : StateM Ledger β) : Prop :=
  ∀ l l' : Ledger, l.tape = l'.tape → (s l).1 = (s l').1 ∧ (s l).2.tape = (s l').2.tape

namespace OfTape

variable {α β ε : Type} {P : Prop}

theorem const (x : β) : OfTape fun l => (x, l) := fun _ _ h => ⟨rfl, h⟩

theorem cleanUp {c : StateM Ledger Unit} (hc : KeepsTape c) (x : β) :
    OfTape fun l => (x, (c l).2) := by
  intro l l' h
  refine ⟨rfl, ?_⟩
  rw [hc, hc, h]

/-- What goes on from the outcome of a determined computation. -/
theorem after {s : StateM Ledger β} {a : ExceptT ε (StateM Ledger) α} (ha : Determined P a)
    {made : α → StateM Ledger β} {failed : ε → StateM Ledger β}
    (run_ok : ∀ l x m, a l = (.ok x, m) → s l = made x m)
    (run_error : ∀ l e m, a l = (.error e, m) → s l = failed e m)
    (hm : ∀ x, OfTape (made x)) (hf : ∀ e, OfTape (failed e)) : OfTape s := by
  intro l l' h
  obtain ⟨result, tape⟩ := ha.eq_of_tape h
  rcases ho : a l with ⟨r, m⟩
  rcases ho' : a l' with ⟨r', m'⟩
  rw [ho, ho'] at result tape
  obtain rfl : r = r' := result
  cases r with
  | ok x =>
    rw [run_ok l x m ho, run_ok l' x m' ho']
    exact hm x m m' tape
  | error e =>
    rw [run_error l e m ho, run_error l' e m' ho']
    exact hf e m m' tape

end OfTape

/-! ## Results -/

/-- What the computation makes, if it succeeds. -/
def Delivers {ε α : Type} (P : α → Prop) (a : ExceptT ε (StateM Ledger) α) : Prop :=
  ∀ l x l', a l = (.ok x, l') → P x

namespace Delivers

variable {ε α β : Type} {P : α → Prop} {Q : β → Prop}

theorem pure {x : α} (h : P x) : Delivers P (Pure.pure x : ExceptT ε (StateM Ledger) α) := by
  intro l y l' run
  cases run
  exact h

theorem throw (e : ε) : Delivers P (MonadExcept.throw e : ExceptT ε (StateM Ledger) α) :=
  fun _ _ _ run => nomatch run

theorem bind {a : ExceptT ε (StateM Ledger) α} {f : α → ExceptT ε (StateM Ledger) β}
    (ha : Delivers P a) (hf : ∀ x, P x → Delivers Q (f x)) : Delivers Q (a >>= f) := by
  intro l y l' run
  rw [run_bind] at run
  rcases ho : a l with ⟨r, m⟩
  rw [ho] at run
  cases r with
  | error e => cases run
  | ok x => exact hf x (ha l x m ho) m y l' run

/-- What is made in the end, whatever came first. -/
theorem last {a : ExceptT ε (StateM Ledger) α} {f : α → ExceptT ε (StateM Ledger) β}
    (hf : ∀ x, Delivers Q (f x)) : Delivers Q (a >>= f) :=
  Delivers.bind (P := fun _ => True) (fun _ _ _ _ => trivial) fun x _ => hf x

theorem ofExcept {r : Except Failure α} (h : ∀ x, r = .ok x → P x) :
    Delivers P (Action.ofExcept r) := fun _ x _ run => h x (congrArg Prod.fst run)

theorem andAlways {a : Action α} {c : StateM Ledger Unit} (ha : Delivers P a) :
    Delivers P (a.andAlways c) := by
  intro l x l' run
  rw [Action.andAlways] at run
  rcases ho : a l with ⟨r, m⟩
  rw [ho] at run
  obtain rfl : r = .ok x := congrArg Prod.fst run
  exact ha l x m ho

theorem orElseRun {a : Action α} {c : StateM Ledger Unit} (ha : Delivers P a) :
    Delivers P (a.orElseRun c) := by
  intro l x l' run
  rw [Action.orElseRun] at run
  rcases ho : a l with ⟨r, m⟩
  rw [ho] at run
  cases r with
  | error e => cases run
  | ok y =>
    cases run
    exact ha l x _ ho

theorem mapError {ε' : Type} {f : ε → ε'} {a : ExceptT ε (StateM Ledger) α}
    {b : ExceptT ε' (StateM Ledger) α} (ha : Delivers P a)
    (h : ∀ l, b l = ((a l).1.mapError f, (a l).2)) : Delivers P b := by
  intro l x l' run
  rw [h] at run
  rcases ho : a l with ⟨r, m⟩
  rw [ho] at run
  cases r with
  | error e => cases run
  | ok y =>
    cases run
    exact ha l x _ ho

theorem ofAction {ι : Type} {inputs : ι} {a : Action α} (ha : Delivers P a) :
    Delivers P (Consuming.ofAction inputs a) := ha.mapError (Consuming.ofAction_apply inputs a)

theorem mapInputs {ι κ : Type} {f : ι → κ} {c : Consuming ι α} (hc : Delivers P c) :
    Delivers P (c.mapInputs f) := hc.mapError (c.mapInputs_apply f)

theorem map {a : ExceptT ε (StateM Ledger) α} {f : α → β} (ha : Delivers P a)
    (h : ∀ x, P x → Q (f x)) : Delivers Q (f <$> a) := by
  rw [map_eq_pure_bind]
  exact ha.bind fun x hx => .pure (h x hx)

end Delivers

variable [Elementary] {P : Prop}

namespace Session

variable {α : Type} {w : Workspace}

omit [Elementary] in
theorem act_ofTape {a : Action α} (ha : Determined P a) : OfTape (act a w) :=
  .after ha (fun l x m h => by rw [act, h]) (fun l e m h => by rw [act, h]) (fun _ => .const _)
    fun _ => .const _

omit [Elementary] in
theorem onEntity_ofTape {name : String} {a : AnyEntity → Action α}
    (ha : ∀ e, Determined P (a e)) : OfTape (onEntity name a w) := by
  unfold onEntity
  cases w.entity? name with
  | some e => exact act_ofTape (ha e)
  | none => exact .const _

theorem keepsTape_dropNamed (w : Workspace) (name : String) : KeepsTape (dropNamed w name) := by
  unfold dropNamed
  cases w.entity? name with
  | some e => exact keepsTape_drop e.handle
  | none => exact fun _ => rfl

theorem keep_ofTape (name : String) (e : AnyEntity) : OfTape (keep name e w) :=
  .cleanUp (keepsTape_dropNamed w name) _

theorem making_ofTape {name : String} {a : Action AnyEntity} (ha : Determined P a) :
    OfTape (making name a w) :=
  .after ha (fun l x m h => by rw [making, h]) (fun l e m h => by rw [making, h])
    (fun e => keep_ofTape name e) fun _ => .const _

theorem consuming_ofTape {ι : Type} {name : String} {c : Consuming ι AnyEntity}
    (hc : Determined P c) (putBack : ι → Workspace → Workspace) :
    OfTape (consuming name c putBack w) :=
  .after hc (fun l x m h => by rw [consuming, h]) (fun l r m h => by rw [consuming, h])
    (fun e => keep_ofTape name e) fun _ => .const _

end Session

/-! ## Commands -/

namespace Command

open Session

variable {w : Workspace}

theorem runChain_ofTape (l : Library) (name first second : String) :
    OfTape (runChain l name first second w) := by
  unfold runChain
  split
  · split
    · exact .const _
    · exact consuming_ofTape (P := True) (l.determined_chain _ _) _
  · exact .const _
  · exact .const _

theorem runCompose_ofTape (l : Library) (name : String) (parts : List String)
    (policy : CompositionPolicy) : OfTape (runCompose l name parts policy w) := by
  unfold runCompose
  split
  · exact consuming_ofTape (P := True) ((l.determined_compose _ policy).map _) _
  · exact .const _

theorem runOn_ofTape (name on : String)
    {c : Entity .measurement → Consuming (Entity .measurement) (Entity .measurement)}
    (hc : ∀ m, Determined P (c m)) : OfTape (runOn name on c w) := by
  unfold runOn
  split
  · exact consuming_ofTape ((hc _).map _) _
  · exact .const _

theorem runMapCurve_ofTape (name on : String) (d : Value) : OfTape (runMapCurve name on d w) := by
  unfold runMapCurve
  split
  · next m _ =>
    have made : Determined True (do
        let c ← m.mapCurve d
        let text ← c.toText.orElseRun c.handle.drop
        return (c, text)) :=
      (m.determined_mapCurve d).bind fun c =>
        (determined_orElseRun c.determined_toText (keepsTape_drop _)).bind fun _ => .pure _
    refine .after made (fun l x m h => by dsimp only; rw [h]) (fun l e m h => by dsimp only; rw [h])
      (fun (c, text) => ?_) fun _ => .const _
    cases w.curve? name with
    | some old => exact .cleanUp (keepsTape_drop old.handle) _
    | none => exact .const _
  · exact .const _
  · exact .const _

theorem runInto_ofTape {r : Role} (on : String) (c : AnyEntity → Except Failure (Entity r)) :
    OfTape (runInto on c w) := by
  unfold runInto
  split
  · split
    · exact .const _
    · exact .cleanUp (keepsTape_drop _) _
  · exact .const _

theorem run_ofTape (l : Library) (c : Command) : OfTape (c.run l w) := by
  cases c with
  | make name c hints => exact making_ofTape (P := True) (c.determined_run l hints)
  | chain name first second => exact runChain_ofTape l name first second
  | compose name parts policy => exact runCompose_ofTape l name parts policy
  | amplify name on population records measure =>
    exact runOn_ofTape (P := True) name on fun m => l.determined_amplify m population _ _
  | fixDelta name on delta =>
    exact runOn_ofTape (P := True) name on fun m => l.determined_fixDelta m delta
  | describe on => exact onEntity_ofTape (P := True) fun e => .pure _
  | invoke on v =>
    refine onEntity_ofTape (P := False) fun e => Determined.map ?_ _
    cases e with
    | transformation t => exact t.determined_invoke v
    | measurement m => exact m.determined_invoke v
  | map on d =>
    refine onEntity_ofTape (P := True) fun e => Determined.map ?_ _
    cases e with
    | transformation t => exact t.determined_map d
    | measurement m => exact m.determined_map d
  | check on dIn dOut =>
    refine onEntity_ofTape (P := True) fun e => Determined.map ?_ _
    cases e with
    | transformation t => exact t.determined_check dIn dOut
    | measurement m => exact m.determined_check dIn dOut
  | mapCurve name on d => exact runMapCurve_ofTape name on d
  | epsilon on delta =>
    show OfTape (runEpsilon on delta w)
    unfold runEpsilon
    split
    · exact act_ofTape (P := True) ((Curve.determined_epsilon _ delta).map _)
    · exact .const _
  | curveText on =>
    show OfTape (runCurveText on w)
    unfold runCurveText
    split
    · exact act_ofTape (P := True) ((Curve.determined_toText _).map _)
    · exact .const _
  | dropCurve on =>
    show OfTape (runDropCurve on w)
    unfold runDropCurve
    split
    · exact .cleanUp (keepsTape_drop _) _
    · exact .const _
  | tree on => exact onEntity_ofTape (P := True) fun e => .pure _
  | release on =>
    show OfTape (runRelease on w)
    unfold runRelease
    split
    · next e _ =>
      have released : Determined True e.handle.release :=
        .of_evaluates (r := fun _ => .ok e.handle.allocationCount) fun t l hl => by
          rw [e.handle.release_eq]
          exact ⟨rfl, hl⟩
      exact act_ofTape (released.map _)
    · exact .const _
  | drop on =>
    show OfTape (runDrop on w)
    unfold runDrop
    split
    · exact .cleanUp (keepsTape_drop _) _
    · exact .const _
  | toTransformation on => exact runInto_ofTape on _
  | toMeasurement on => exact runInto_ofTape on _

end Command

namespace Workspace

/-- The answers to commands, each through a library of its own. -/
def answers : List (Library × Command) → Workspace → Ledger → List (Except Refusal Answer)
  | [], _, _ => []
  | (library, c) :: rest, w, l =>
    match c.run library w l with
    | ((answer, w), l) => answer :: answers rest w l

/-- All answers are told by the tape. -/
theorem answers_eq (commands : List (Library × Command)) (w : Workspace) {l l' : Ledger}
    (h : l.tape = l'.tape) : answers commands w l = answers commands w l' := by
  induction commands generalizing w l l' with
  | nil => rfl
  | cons step rest ih =>
    obtain ⟨library, c⟩ := step
    obtain ⟨same, tape⟩ := c.run_ofTape library (w := w) l l' h
    show (c.run library w l).1.1 :: answers rest (c.run library w l).1.2 (c.run library w l).2 = _
    rw [same, ih _ tape]
    rfl

end Workspace

/-! ## Children -/

/-- A returned handle owns nothing but the thing itself. -/
def Returned.IsBare : Returned → Prop
  | handle h => h.children = []
  | _ => True

theorem Returned.bare_ofPayload (p : Payload) (o : Outcome) : Delivers IsBare (ofPayload p o) := by
  have bare : ∀ k h, Handle.ofPayload k p = .ok h → h.children = [] := by
    intro k h made
    unfold Handle.ofPayload at made
    split at made
    · split at made
      · cases made
        rfl
      · cases made
    · cases made
  cases o with
  | transformation => exact (Delivers.ofExcept (bare _)).bind fun _ h => .pure h
  | measurement => exact (Delivers.ofExcept (bare _)).bind fun _ h => .pure h
  | object => exact (Delivers.ofExcept (bare _)).bind fun _ h => .pure h
  | view => exact (Delivers.ofExcept (bare _)).bind fun _ h => .pure h
  | value => exact .last fun _ => .last fun _ => .pure trivial
  | bool => exact .last fun _ => .pure trivial
  | float => exact .last fun _ => .pure trivial
  | text => exact .last fun _ => .pure trivial
  | unit => exact .pure trivial

theorem Signature.bare_call (s : Signature) (features : Features) (b : Bindings)
    (args : List Argument) : Delivers Returned.IsBare (s.call features b args) := by
  refine .last fun _ => ?_
  split
  · exact .throw _
  · refine .last fun _ => .last fun frame => .andAlways ?_
    exact .last fun _ => .last fun p => Returned.bare_ofPayload p _

theorem Entity.handle_ofHandle (r : Role) (h : Handle) :
    Delivers (fun e => e.handle = h) (ofHandle r h) :=
  .orElseRun (.last fun _ => .last fun _ => .pure rfl)

theorem Library.children_makeFrom (l : Library) {r : Role} (s : Signature) (b : Bindings)
    (args : List Argument) (children : List Handle) :
    Delivers (fun e => e.handle.children = children) (l.makeFrom r s b args children) := by
  have made : Delivers (fun e => e.handle.children = []) (l.make r s b args) := by
    refine (s.bare_call l.features b args).bind fun returned bare => ?_
    have handle : ∀ h, returned.toHandle = .ok h → h.children = [] := by
      intro h taken
      cases returned with
      | handle h' =>
        cases taken
        exact bare
      | _ => cases taken
    refine (Delivers.ofExcept handle).bind fun h bare => ?_
    exact fun l e l' run => (Entity.handle_ofHandle r h l e l' run) ▸ bare
  refine made.bind fun e bare => .pure ?_
  show e.handle.children ++ children = children
  rw [bare, List.nil_append]

theorem Library.children_chainInto (l : Library) {r : Role} (s : Signature)
    (first : Entity .transformation) (second : Entity r) :
    Delivers (fun e => e.handle.children = [second.handle, first.handle])
      (l.chainInto s first second) :=
  .last fun _ => l.children_makeFrom _ _ _ _

/-! ## Compositions -/

/-- The operation hands its inputs back if it fails, and then nothing is different but the last error.
If it succeeds, the result is one allocation more, which owns the given handles. -/
structure TakesOver {ι α : Type} (c : Consuming ι α) (inputs : ι) (children : List Handle)
    (handle : α → Handle) : Prop where
  rejected : ∀ l r l', c l = (.error r, l') → r.inputs = inputs ∧ l'.clearError = l.clearError ∧
    ∀ commands w, Workspace.answers commands w l' = Workspace.answers commands w l
  made : ∀ l x l', c l = (.ok x, l') → l'.live = l.live + 1 ∧ (handle x).children = children ∧
    (handle x).allocationCount = 1 + Handle.allocationCounts children

theorem Consumes.takesOver {ι α : Type} {c : Consuming ι α} {inputs : ι} {children : List Handle}
    {handle : α → Handle} (hc : Consumes c inputs children handle) (hd : Determined True c)
    (hm : Delivers (fun x => (handle x).children = children) c) :
    TakesOver c inputs children handle where
  rejected := by
    intro l r l' run
    have consumed := hc l
    have tape := hd.tape_eq trivial l
    rw [run] at consumed tape
    obtain ⟨inputs, live⟩ := consumed
    refine ⟨inputs, ?_, fun commands w => Workspace.answers_eq commands w tape⟩
    simp only [Ledger.clearError, Ledger.mk.injEq, true_and]
    exact ⟨live, tape⟩
  made := by
    intro l x l' run
    have consumed := hc l
    have children_eq := hm l x l' run
    rw [run] at consumed
    have count : (handle x).allocationCount = 1 + Handle.allocationCounts children := by
      rw [← children_eq]
      cases handle x
      rfl
    have owned : l'.live - l.live + Handle.allocationCounts children =
      (handle x).allocationCount := consumed
    exact ⟨by omega, children_eq, count⟩

/-- Chains, compositions, amplification and fixed deltas consume their inputs only on success, whatever
the entities and the parameters are. -/
theorem compositions_take_over (l : Library) :
    (∀ first second, TakesOver (l.chain first second) (first, second)
      [second.handle, first.handle] AnyEntity.handle) ∧
    (∀ first second, TakesOver (l.chainTransformations first second) (first, second)
      [second.handle, first.handle] Entity.handle) ∧
    (∀ first second, TakesOver (l.chainMeasurement first second) (first, second)
      [second.handle, first.handle] Entity.handle) ∧
    (∀ parts policy, TakesOver (l.compose parts policy) parts (parts.map Entity.handle)
      Entity.handle) ∧
    (∀ part population records measure, TakesOver (l.amplify part population records measure) part
      [part.handle] Entity.handle) ∧
    ∀ part delta, TakesOver (l.fixDelta part delta) part [part.handle] Entity.handle := by
  refine ⟨fun first second => ?chain, fun first second => ?transformations,
    fun first second => ?measurement, fun parts policy => ?compose,
    fun part population records measure => ?amplify, fun part delta => ?fixDelta⟩
  case chain =>
    refine (l.consumes_chain first second).takesOver (l.determined_chain first second) ?_
    cases first with
    | measurement m => exact .ofAction (.throw _)
    | transformation t =>
      cases second with
      | transformation u =>
        exact (Delivers.ofAction (l.children_chainInto _ t u)).mapInputs.map fun _ h => h
      | measurement m =>
        exact (Delivers.ofAction (l.children_chainInto _ t m)).mapInputs.map fun _ h => h
  case transformations =>
    have settles := l.settles_chainInto .chainTransformations (by simp [Signature.catalog]) rfl
      first second
    exact (consumes_ofAction _ settles).takesOver (l.determined_chainTransformations first second)
      (.ofAction (l.children_chainInto _ first second))
  case measurement =>
    have settles := l.settles_chainInto .chainMeasurement (by simp [Signature.catalog]) rfl
      first second
    exact (consumes_ofAction _ settles).takesOver (l.determined_chainMeasurement first second)
      (.ofAction (l.children_chainInto _ first second))
  case compose =>
    refine (l.consumes_compose parts policy).takesOver (l.determined_compose parts policy) ?_
    exact .ofAction (.last fun _ => l.children_makeFrom _ _ _ _)
  case amplify =>
    refine (l.consumes_amplify part population records measure).takesOver
      (l.determined_amplify part population records measure) ?_
    exact .ofAction (.last fun _ => .last fun _ => .last fun _ => l.children_makeFrom _ _ _ _)
  case fixDelta =>
    refine (l.consumes_fixDelta part delta).takesOver (l.determined_fixDelta part delta) ?_
    exact .ofAction (.last fun _ => l.children_makeFrom _ _ _ _)

end PrivateRelease.Host
