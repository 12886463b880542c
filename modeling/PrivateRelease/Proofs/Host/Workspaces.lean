import PrivateRelease.Host.Workspace
import PrivateRelease.Proofs.Host.Conservation

/-!
# Live allocations of workspaces

Under every command the number of live allocations changes by as much as the number of allocations
that the workspace owns, whether the command succeeds, fails or is refused. So after any commands
from an empty workspace, what is live beyond what was live before is what the entities and curves of
the workspace own.
-/

namespace PrivateRelease.Host

open Boundary

/-! ## Named things -/

namespace Workspace

variable {α : Type}

/-- The sum over the things with names. -/
def total (f : α → Nat) : List (String × α) → Nat
  | [] => 0
  | x :: xs => f x.2 + total f xs

/-- Every name is used once. -/
def Distinct (xs : List (String × α)) : Prop := (xs.map Prod.fst).Nodup

theorem without_eq_self {xs : List (String × α)} {name : String} (h : name ∉ xs.map Prod.fst) :
    without name xs = xs := by
  rw [without, List.filter_eq_self]
  intro x hx
  simp only [ne_eq, decide_not, Bool.not_eq_eq_eq_not, Bool.not_true, decide_eq_false_iff_not]
  rintro rfl
  exact h (List.mem_map_of_mem hx)

theorem without_eq_self_of_lookup {xs : List (String × α)} {name : String}
    (h : xs.lookup name = none) : without name xs = xs := by
  refine without_eq_self fun hn => ?_
  obtain ⟨x, hx, rfl⟩ := List.mem_map.mp hn
  rw [List.lookup_eq_none_iff] at h
  simpa using h x hx

theorem Distinct.without {xs : List (String × α)} (h : Distinct xs) (name : String) :
    Distinct (without name xs) :=
  h.sublist (List.filter_sublist.map _)

theorem not_mem_without (xs : List (String × α)) (name : String) :
    name ∉ (without name xs).map Prod.fst := by
  simp [Workspace.without]

theorem lookup_without {name other : String} (hne : name ≠ other) (xs : List (String × α)) :
    (without other xs).lookup name = xs.lookup name := by
  induction xs with
  | nil => rfl
  | cons y ys ih =>
    by_cases hy : y.1 = other
    · have rest : without other (y :: ys) = without other ys := by simp [without, hy]
      have skip : (name == y.1) = false := by simp [hy, hne]
      rw [rest, ih, List.lookup_cons, skip]
    · have rest : without other (y :: ys) = y :: without other ys := by simp [without, hy]
      rw [rest, List.lookup_cons, List.lookup_cons, ih]

theorem total_without {xs : List (String × α)} (hd : Distinct xs) (f : α → Nat) {name : String}
    {x : α} (h : xs.lookup name = some x) : total f (without name xs) + f x = total f xs := by
  induction xs with
  | nil => cases h
  | cons y ys ih =>
    obtain ⟨other, z⟩ := y
    have hy : other ∉ ys.map Prod.fst := (List.nodup_cons.mp hd).1
    rw [List.lookup_cons] at h
    split at h
    · next heq =>
      obtain rfl : name = other := by simpa using heq
      cases h
      have rest : without name ((name, x) :: ys) = ys := by
        simpa [without] using without_eq_self hy
      rw [rest]
      simp [total, Nat.add_comm]
    · next hne =>
      have hne : other ≠ name := by
        rintro rfl
        simp at hne
      have rest : without name ((other, z) :: ys) = (other, z) :: without name ys := by
        simp [without, hne]
      have := ih (List.nodup_cons.mp hd).2 h
      rw [rest]
      simp only [total] at this ⊢
      omega

theorem Distinct.cons {xs : List (String × α)} (h : Distinct xs) {name : String} (x : α) :
    Distinct ((name, x) :: Workspace.without name xs) :=
  List.nodup_cons.mpr ⟨not_mem_without xs name, h.without name⟩

/-! ## Workspaces -/

/-- Names are used once for an entity and once for a curve. -/
structure Proper (w : Workspace) : Prop where
  entities : Distinct w.entities
  curves : Distinct w.curves

/-- What the entities and curves own. -/
def owned (w : Workspace) : Nat := Handle.allocationCounts w.handles

theorem allocationCounts_map (f : α → Handle) (xs : List (String × α)) :
    Handle.allocationCounts (xs.map fun x => f x.2) = total (fun x => (f x).allocationCount) xs := by
  induction xs with
  | nil => simp [total, Handle.allocationCounts]
  | cons x xs ih =>
    simp only [total, List.map_cons, Handle.allocationCounts]
    rw [ih]

theorem owned_eq (w : Workspace) : w.owned =
    total (fun e => e.handle.allocationCount) w.entities +
      total (fun c => c.handle.allocationCount) w.curves := by
  rw [owned, handles, Handle.allocationCounts_append, allocationCounts_map AnyEntity.handle,
    allocationCounts_map Curve.handle]

theorem Proper.remove {w : Workspace} (h : w.Proper) (name : String) : (w.remove name).Proper :=
  ⟨h.entities.without name, h.curves⟩

theorem Proper.put {w : Workspace} (h : w.Proper) (name : String) (e : AnyEntity) :
    (w.put name e).Proper :=
  ⟨h.entities.cons e, h.curves⟩

theorem Proper.removeCurve {w : Workspace} (h : w.Proper) (name : String) :
    (w.removeCurve name).Proper :=
  ⟨h.entities, h.curves.without name⟩

theorem Proper.putCurve {w : Workspace} (h : w.Proper) (name : String) (c : Curve) :
    (w.putCurve name c).Proper :=
  ⟨h.entities, h.curves.cons c⟩

theorem owned_remove {w : Workspace} (h : w.Proper) {name : String} {e : AnyEntity}
    (he : w.entity? name = some e) :
    (w.remove name).owned + e.handle.allocationCount = w.owned := by
  have := total_without h.entities (fun e => e.handle.allocationCount) he
  simp only [owned_eq, remove] at this ⊢
  omega

theorem owned_put (w : Workspace) (name : String) (e : AnyEntity) :
    (w.put name e).owned = (w.remove name).owned + e.handle.allocationCount := by
  simp only [owned_eq, put, remove, total]
  omega

theorem owned_removeCurve {w : Workspace} (h : w.Proper) {name : String} {c : Curve}
    (hc : w.curve? name = some c) :
    (w.removeCurve name).owned + c.handle.allocationCount = w.owned := by
  have := total_without h.curves (fun c => c.handle.allocationCount) hc
  simp only [owned_eq, removeCurve] at this ⊢
  omega

theorem owned_putCurve (w : Workspace) (name : String) (c : Curve) :
    (w.putCurve name c).owned = (w.removeCurve name).owned + c.handle.allocationCount := by
  simp only [owned_eq, putCurve, removeCurve, total]
  omega

theorem remove_eq_self {w : Workspace} {name : String} (h : w.entity? name = none) :
    w.remove name = w := by
  rw [remove, without_eq_self_of_lookup h]

theorem entity?_remove_self (w : Workspace) (name : String) :
    (w.remove name).entity? name = none := by
  rw [entity?, List.lookup_eq_none_iff]
  intro x hx
  have kept := (List.mem_filter.mp hx).2
  simp only [ne_eq, decide_not, Bool.not_eq_eq_eq_not, Bool.not_true, decide_eq_false_iff_not]
    at kept
  simpa using fun h => kept h.symm

theorem entity?_remove {name other : String} (hne : other ≠ name) (w : Workspace) :
    (w.remove name).entity? other = w.entity? other :=
  lookup_without hne w.entities

theorem entity?_put {name other : String} (hne : other ≠ name) (w : Workspace) (e : AnyEntity) :
    (w.put name e).entity? other = w.entity? other := by
  have skip : (other == name) = false := by simpa using hne
  simp only [put, entity?, List.lookup_cons, skip]
  exact lookup_without hne w.entities

theorem owned_put_of_absent {w : Workspace} {name : String} (h : w.entity? name = none)
    (e : AnyEntity) : (w.put name e).owned = w.owned + e.handle.allocationCount := by
  rw [owned_put, remove_eq_self h]

theorem removeCurve_eq_self {w : Workspace} {name : String} (h : w.curve? name = none) :
    w.removeCurve name = w := by
  rw [removeCurve, without_eq_self_of_lookup h]

end Workspace

/-! ## Sessions -/

/-- What is live beyond `base` is what the workspace owns. -/
structure Balanced (base : Int) (w : Workspace) (l : Ledger) : Prop where
  proper : w.Proper
  live : l.live = base + w.owned

/-- As `Balanced`, for the outcome of a session. -/
def Ends (base : Int) {α : Type} (s : Id ((Except Refusal α × Workspace) × Ledger)) : Prop :=
  Balanced base s.1.2 s.2

namespace Session

variable {α : Type} {base : Int} {w : Workspace} {l : Ledger}

theorem act_balanced {a : Action α} (ha : Settles a 0 Owes) (h : Balanced base w l) :
    Ends base (act a w l) := by
  have hl := ha l
  unfold act
  generalize a l = out at hl
  rcases out with ⟨e | x, l'⟩
  · refine ⟨h.proper, ?_⟩
    have := h.live
    simp only at hl ⊢
    omega
  · refine ⟨h.proper, ?_⟩
    have := h.live
    simp only [Owes] at hl ⊢
    omega

theorem onEntity_balanced {name : String} {a : AnyEntity → Action α}
    (ha : ∀ e, Settles (a e) 0 Owes) (h : Balanced base w l) :
    Ends base (onEntity name a w l) := by
  unfold onEntity
  split
  · exact act_balanced (ha _) h
  · exact h

variable [Elementary]

theorem dropNamed_live (w : Workspace) (h : w.Proper) (name : String) (l : Ledger) :
    (dropNamed w name l).2.live + w.owned = l.live + (w.remove name).owned := by
  unfold dropNamed
  cases he : w.entity? name with
  | none =>
    rw [Workspace.remove_eq_self he]
    rfl
  | some e =>
    have := Workspace.owned_remove h he
    simp only [Handle.drop_eq, after]
    omega

/-- The kept entity takes the place of what had its name. -/
theorem keep_balanced {name : String} {e : AnyEntity} (hw : w.Proper)
    (hl : l.live = base + w.owned + e.handle.allocationCount) : Ends base (keep name e w l) := by
  refine ⟨hw.put name e, ?_⟩
  have := dropNamed_live w hw name l
  have := w.owned_put name e
  change (dropNamed w name l).2.live = base + (w.put name e).owned
  omega

theorem making_balanced {name : String} {a : Action AnyEntity}
    (ha : Settles a 0 fun e => Holds e.handle) (h : Balanced base w l) :
    Ends base (making name a w l) := by
  have hl := ha l
  have := h.live
  unfold making
  generalize a l = out at hl
  rcases out with ⟨e | x, l'⟩
  · refine ⟨h.proper, ?_⟩
    simp only at hl ⊢
    omega
  · refine keep_balanced h.proper ?_
    simp only [Holds] at hl ⊢
    omega

/-- The inputs were taken out of the workspace, so the ledger still counts what they own. -/
theorem consuming_balanced {ι : Type} {name : String} {c : Consuming ι AnyEntity}
    {putBack : ι → Workspace → Workspace} {inputs : ι} {children : List Handle}
    (hc : Consumes c inputs children AnyEntity.handle) (hw : w.Proper)
    (hl : l.live = base + w.owned + Handle.allocationCounts children)
    (hp : (putBack inputs w).Proper)
    (ho : (putBack inputs w).owned = w.owned + Handle.allocationCounts children) :
    Ends base (consuming name c putBack w l) := by
  have hr := hc l
  unfold consuming
  generalize c l = out at hr
  rcases out with ⟨e | x, l'⟩
  · obtain ⟨rfl, hr⟩ := hr
    refine ⟨hp, ?_⟩
    simp only at hr ⊢
    omega
  · refine keep_balanced hw ?_
    simp only [Adopts] at hr ⊢
    omega

/-! ## Taking measurements -/

/-- What was taken from `w` under the names, leaving `w'`. -/
structure Taken (w : Workspace) (names : List String) (ms : List (Entity .measurement))
    (w' : Workspace) : Prop where
  proper : w'.Proper
  owned : w.owned = w'.owned + Handle.allocationCounts (ms.map Entity.handle)
  absent : ∀ name ∈ names, w'.entity? name = none
  distinct : names.Nodup
  length : ms.length = names.length

omit [Elementary] in
theorem takeMeasurement_eq_ok {name : String} {w w' : Workspace} {m : Entity .measurement}
    (h : takeMeasurement name w = .ok (m, w')) :
    w.entity? name = some (.measurement m) ∧ w' = w.remove name := by
  unfold takeMeasurement at h
  split at h
  · next he =>
    cases h
    exact ⟨he, rfl⟩
  · cases h
  · cases h

omit [Elementary] in
theorem takeMeasurements_cons {name : String} {names : List String} {w w' : Workspace}
    {ms : List (Entity .measurement)} (h : takeMeasurements (name :: names) w = .ok (ms, w')) :
    ∃ m ms', ms = m :: ms' ∧ w.entity? name = some (.measurement m) ∧
      takeMeasurements names (w.remove name) = .ok (ms', w') := by
  unfold takeMeasurements at h
  cases hm : takeMeasurement name w with
  | error r => simp [hm, bind, Except.bind] at h
  | ok first =>
    obtain ⟨m, w₁⟩ := first
    obtain ⟨he, rfl⟩ := takeMeasurement_eq_ok hm
    cases hr : takeMeasurements names (w.remove name) with
    | error r => simp [hm, hr, bind, Except.bind] at h
    | ok rest =>
      simp only [hm, hr, bind, Except.bind, pure, Except.pure, Except.ok.injEq, Prod.mk.injEq] at h
      exact ⟨m, rest.1, h.1.symm, he, by rw [← h.2]⟩

omit [Elementary] in
/-- A name without a thing is not among the names taken, and has no thing afterwards. -/
theorem absent_of_takeMeasurements {other : String} {names : List String} {w w' : Workspace}
    {ms : List (Entity .measurement)} (h : takeMeasurements names w = .ok (ms, w'))
    (ho : w.entity? other = none) : other ∉ names ∧ w'.entity? other = none := by
  induction names generalizing w ms with
  | nil =>
    cases h
    exact ⟨by simp, ho⟩
  | cons name names ih =>
    obtain ⟨m, ms', -, he, hr⟩ := takeMeasurements_cons h
    have hne : other ≠ name := by
      rintro rfl
      rw [he] at ho
      cases ho
    obtain ⟨hn, hw⟩ := ih hr (by rw [Workspace.entity?_remove hne, ho])
    exact ⟨by simp [hne, hn], hw⟩

omit [Elementary] in
theorem takeMeasurements_eq_ok {names : List String} {w w' : Workspace}
    {ms : List (Entity .measurement)} (hw : w.Proper)
    (h : takeMeasurements names w = .ok (ms, w')) : Taken w names ms w' := by
  induction names generalizing w ms with
  | nil =>
    cases h
    exact ⟨hw, by simp [Handle.allocationCounts], by simp, .nil, rfl⟩
  | cons name names ih =>
    obtain ⟨m, ms', rfl, he, hr⟩ := takeMeasurements_cons h
    have taken := ih (hw.remove name) hr
    obtain ⟨hn, hw'⟩ := absent_of_takeMeasurements hr (Workspace.entity?_remove_self w name)
    refine ⟨taken.proper, ?_, ?_, List.nodup_cons.mpr ⟨hn, taken.distinct⟩, ?_⟩
    · have removed := Workspace.owned_remove hw he
      have rest := taken.owned
      simp only [List.map_cons, Handle.allocationCounts, AnyEntity.handle] at removed ⊢
      omega
    · simpa [hw'] using taken.absent
    · simp [taken.length]

omit [Elementary] in
theorem putMeasurements_owned {names : List String} {ms : List (Entity .measurement)}
    {w : Workspace} (hw : w.Proper) (hl : ms.length = names.length) (hd : names.Nodup)
    (ha : ∀ name ∈ names, w.entity? name = none) : (putMeasurements names ms w).Proper ∧
    (putMeasurements names ms w).owned =
      w.owned + Handle.allocationCounts (ms.map Entity.handle) := by
  induction names generalizing ms w with
  | nil =>
    obtain rfl := List.length_eq_zero_iff.mp hl
    exact ⟨hw, by simp [putMeasurements, Handle.allocationCounts]⟩
  | cons name names ih =>
    cases ms with
    | nil => simp at hl
    | cons m ms =>
      obtain ⟨hn, hd⟩ := List.nodup_cons.mp hd
      have absent : ∀ other ∈ names, (w.put name (.measurement m)).entity? other = none := by
        intro other ho
        rw [Workspace.entity?_put (ne_of_mem_of_not_mem ho hn)]
        exact ha other (List.mem_cons_of_mem _ ho)
      obtain ⟨proper, owned⟩ := ih (hw.put name (.measurement m)) (by simpa using hl) hd absent
      refine ⟨proper, ?_⟩
      have first := Workspace.owned_put_of_absent (ha name List.mem_cons_self) (.measurement m)
      rw [putMeasurements, putMeasurement, owned, first]
      simp only [List.map_cons, Handle.allocationCounts, AnyEntity.handle]
      omega

end Session

/-! ## Commands -/

namespace Construction

variable [Elementary]

theorem settles_run (l : Library) (hints : Hints) (c : Construction) :
    Settles (c.run l hints) 0 fun e => Holds e.handle := by
  have transformation : ∀ {a : Action (Entity .transformation)}, Settles a 0 Keeps →
      Settles (AnyEntity.transformation <$> a) 0 fun e => Holds e.handle :=
    fun h => h.map fun _ _ => id
  have measurement : ∀ {a : Action (Entity .measurement)}, Settles a 0 Keeps →
      Settles (AnyEntity.measurement <$> a) 0 fun e => Holds e.handle :=
    fun h => h.map fun _ _ => id
  cases c with
  | identity => exact transformation (l.settles_identity hints)
  | clamp lower upper => exact transformation (l.settles_clamp lower upper hints)
  | boundedSum lower upper => exact transformation (l.settles_boundedSum lower upper hints)
  | boundedMean lower upper n => exact transformation (l.settles_boundedMean lower upper n hints)
  | count => exact transformation (l.settles_count hints)
  | laplace scale => exact measurement (l.settles_laplace scale hints)
  | gaussian scale => exact measurement (l.settles_gaussian scale hints)
  | geometric scale => exact measurement (l.settles_geometric scale hints)

end Construction

namespace Command

open Session

variable [Elementary] {base : Int} {w : Workspace} {ledger : Ledger}

theorem runChain_balanced (l : Library) (name first second : String)
    (h : Balanced base w ledger) : Ends base (runChain l name first second w ledger) := by
  unfold runChain
  split
  · next e f he hf =>
    split
    · exact h
    next hne =>
    have hf' : (w.remove first).entity? second = some f := by
      rw [Workspace.entity?_remove (Ne.symm hne), hf]
    have proper := (h.proper.remove first).remove second
    have removed := Workspace.owned_remove h.proper he
    have removed' := Workspace.owned_remove (h.proper.remove first) hf'
    have live := h.live
    have absent : ((w.remove first).remove second).entity? first = none := by
      rw [Workspace.entity?_remove hne, Workspace.entity?_remove_self]
    have absent' : (((w.remove first).remove second).put first e).entity? second = none := by
      rw [Workspace.entity?_put (Ne.symm hne), Workspace.entity?_remove_self]
    have put := Workspace.owned_put_of_absent absent e
    have put' := Workspace.owned_put_of_absent absent' f
    refine consuming_balanced (l.consumes_chain e f) proper ?_ ((proper.put first e).put second f) ?_
    · simp only [Handle.allocationCounts]
      omega
    · simp only [Handle.allocationCounts]
      omega
  · exact h
  · exact h

theorem runCompose_balanced (l : Library) (name : String) (parts : List String)
    (policy : CompositionPolicy) (h : Balanced base w ledger) :
    Ends base (runCompose l name parts policy w ledger) := by
  unfold runCompose
  split
  · next ms w' ht =>
    have taken := takeMeasurements_eq_ok h.proper ht
    obtain ⟨proper, owned⟩ :=
      putMeasurements_owned taken.proper taken.length taken.distinct taken.absent
    have live := h.live
    have lent := taken.owned
    refine consuming_balanced ((l.consumes_compose ms policy).map _ fun _ => rfl) taken.proper ?_
      proper owned
    omega
  · exact h

theorem runOn_balanced (name on : String)
    {c : Entity .measurement → Consuming (Entity .measurement) (Entity .measurement)}
    (hc : ∀ m, Consumes (c m) m [m.handle] Entity.handle) (h : Balanced base w ledger) :
    Ends base (runOn name on c w ledger) := by
  unfold runOn
  split
  · next m w' ht =>
    obtain ⟨he, rfl⟩ := takeMeasurement_eq_ok ht
    have proper := h.proper.remove on
    have removed := Workspace.owned_remove h.proper he
    have put := Workspace.owned_put_of_absent (Workspace.entity?_remove_self w on) (.measurement m)
    have live := h.live
    refine consuming_balanced ((hc m).map _ fun _ => rfl) proper ?_
      (proper.put on (.measurement m)) ?_
    · simp only [Handle.allocationCounts, AnyEntity.handle] at removed ⊢
      omega
    · simp only [Handle.allocationCounts, AnyEntity.handle] at put ⊢
      exact put
  · exact h

theorem settles_mapCurveText (m : Entity .measurement) (d : Value) :
    Settles (do
      let c ← m.mapCurve d
      let text ← c.toText.orElseRun c.handle.drop
      return (c, text)) 0 fun x => Holds x.1.handle := by
  refine (m.settles_mapCurve d).bind fun c k hk => ?_
  have text := settles_orElseRun c.settles_toText (frees_drop c.handle)
  rw [Int.zero_add] at text
  rw [show k = c.handle.allocationCount from hk]
  refine text.bind fun s k hs => .pure ?_
  have : k - c.handle.allocationCount = 0 := hs
  change k = c.handle.allocationCount
  omega

theorem dropCurveNamed_live (h : w.Proper) (name : String) (l : Ledger) :
    ((match w.curve? name with
      | some old => old.handle.drop
      | none => pure () : StateM Ledger Unit) l).2.live + w.owned =
      l.live + (w.removeCurve name).owned := by
  cases hc : w.curve? name with
  | none =>
    rw [Workspace.removeCurve_eq_self hc]
    rfl
  | some c =>
    have := Workspace.owned_removeCurve h hc
    simp only [Handle.drop_eq, after]
    omega

theorem runMapCurve_balanced (name on : String) (d : Value) (h : Balanced base w ledger) :
    Ends base (runMapCurve name on d w ledger) := by
  unfold runMapCurve
  split
  · next m _ =>
    have hl := settles_mapCurveText m d ledger
    have live := h.live
    simp only
    generalize (do
      let c ← m.mapCurve d
      let text ← c.toText.orElseRun c.handle.drop
      return (c, text) : Action (Curve × String)) ledger = out at hl ⊢
    rcases out with ⟨e | ⟨c, text⟩, l'⟩
    · refine ⟨h.proper, ?_⟩
      simp only at hl ⊢
      omega
    · refine ⟨h.proper.putCurve name c, ?_⟩
      have dropped := dropCurveNamed_live h.proper name l'
      have put := w.owned_putCurve name c
      change ((match w.curve? name with
        | some old => old.handle.drop
        | none => pure () : StateM Ledger Unit) l').2.live = base + (w.putCurve name c).owned
      simp only [Holds] at hl
      omega
  · exact h
  · exact h

theorem runEpsilon_balanced (on : String) (delta : Binary .double) (h : Balanced base w ledger) :
    Ends base (runEpsilon on delta w ledger) := by
  unfold runEpsilon
  split
  · next c _ => exact act_balanced ((c.settles_epsilon delta).map fun _ _ => id) h
  · exact h

theorem runCurveText_balanced (on : String) (h : Balanced base w ledger) :
    Ends base (runCurveText on w ledger) := by
  unfold runCurveText
  split
  · next c _ => exact act_balanced (c.settles_toText.map fun _ _ => id) h
  · exact h

theorem runDropCurve_balanced (on : String) (h : Balanced base w ledger) :
    Ends base (runDropCurve on w ledger) := by
  unfold runDropCurve
  split
  · next c hc =>
    refine ⟨h.proper.removeCurve on, ?_⟩
    have removed := Workspace.owned_removeCurve h.proper hc
    have live := h.live
    simp only [Handle.drop_eq, after]
    omega
  · exact h

omit [Elementary] in
/-- An entity that leaves the workspace and is given back. -/
theorem given_back {on : String} {e : AnyEntity} (h : Balanced base w ledger)
    (he : w.entity? on = some e) :
    Balanced base (w.remove on) (after ledger e.handle.allocationCount) := by
  refine ⟨h.proper.remove on, ?_⟩
  have removed := Workspace.owned_remove h.proper he
  have live := h.live
  simp only [after]
  omega

theorem runRelease_balanced (on : String) (h : Balanced base w ledger) :
    Ends base (runRelease on w ledger) := by
  unfold runRelease
  split
  · next e he =>
    have released : (Answer.released <$> e.handle.release) ledger =
        (.ok (.released e.handle.allocationCount), after ledger e.handle.allocationCount) := by
      rw [run_map, Handle.release_eq]
    simp only [act, released]
    exact given_back h he
  · exact h

theorem runDrop_balanced (on : String) (h : Balanced base w ledger) :
    Ends base (runDrop on w ledger) := by
  unfold runDrop
  split
  · next e he =>
    simp only [Handle.drop_eq]
    exact given_back h he
  · exact h

theorem runInto_balanced {r : Role} (on : String) (c : AnyEntity → Except Failure (Entity r))
    (h : Balanced base w ledger) : Ends base (runInto on c w ledger) := by
  unfold runInto
  split
  · next e he =>
    split
    · exact h
    · simp only [Handle.drop_eq]
      exact given_back h he
  · exact h

theorem settles_entityInvoke (e : AnyEntity) (v : Value) : Settles (e.invoke v) 0 Owes := by
  cases e with
  | transformation t => exact t.settles_invoke v
  | measurement m => exact m.settles_invoke v

theorem settles_entityMap (e : AnyEntity) (d : Value) : Settles (e.map d) 0 Owes := by
  cases e with
  | transformation t => exact t.settles_map d
  | measurement m => exact m.settles_map d

theorem settles_entityCheck (e : AnyEntity) (dIn dOut : Value) :
    Settles (e.check dIn dOut) 0 Owes := by
  cases e with
  | transformation t => exact t.settles_check dIn dOut
  | measurement m => exact m.settles_check dIn dOut

/-- Every command keeps the balance, whether it succeeds, fails or is refused. -/
theorem run_balanced (l : Library) (c : Command) (h : Balanced base w ledger) :
    Ends base (c.run l w ledger) := by
  cases c with
  | make name c hints => exact making_balanced (c.settles_run l hints) h
  | chain name first second => exact runChain_balanced l name first second h
  | compose name parts policy => exact runCompose_balanced l name parts policy h
  | amplify name on population records measure =>
    exact runOn_balanced name on (fun m => l.consumes_amplify m population records measure) h
  | fixDelta name on delta => exact runOn_balanced name on (fun m => l.consumes_fixDelta m delta) h
  | describe on => exact onEntity_balanced (fun e => .pure rfl) h
  | invoke on v =>
    exact onEntity_balanced (fun e => (settles_entityInvoke e v).map fun _ _ => id) h
  | map on d => exact onEntity_balanced (fun e => (settles_entityMap e d).map fun _ _ => id) h
  | check on dIn dOut =>
    exact onEntity_balanced (fun e => (settles_entityCheck e dIn dOut).map fun _ _ => id) h
  | mapCurve name on d => exact runMapCurve_balanced name on d h
  | epsilon on delta => exact runEpsilon_balanced on delta h
  | curveText on => exact runCurveText_balanced on h
  | dropCurve on => exact runDropCurve_balanced on h
  | tree on => exact onEntity_balanced (fun e => .pure rfl) h
  | release on => exact runRelease_balanced on h
  | drop on => exact runDrop_balanced on h
  | toTransformation on => exact runInto_balanced on _ h
  | toMeasurement on => exact runInto_balanced on _ h

end Command

/-! ## Runs -/

namespace Workspace

variable [Elementary]

/-- The workspace and the ledger after commands, each through a library of its own. -/
def run : List (Library × Command) → Workspace → Ledger → Workspace × Ledger
  | [], w, l => (w, l)
  | (library, c) :: rest, w, l =>
    match c.run library w l with
    | ((_, w), l) => run rest w l

theorem run_balanced {base : Int} (commands : List (Library × Command)) {w : Workspace} {l : Ledger}
    (h : Balanced base w l) : Balanced base (run commands w l).1 (run commands w l).2 := by
  induction commands generalizing w l with
  | nil => exact h
  | cons step rest ih =>
    obtain ⟨library, c⟩ := step
    exact ih (c.run_balanced library h)

omit [Elementary] in
theorem empty_balanced (l : Ledger) : Balanced l.live empty l :=
  ⟨⟨.nil, .nil⟩, by simp [owned, handles, empty, Handle.allocationCounts]⟩

/-- After any commands, the allocations that are live beyond those at the start are the ones that the
entities and curves of the workspace own. Releasing or dropping any of them lowers the number of live
allocations by what it owns, and releasing answers with that number. -/
theorem live_eq_owned :
    (∀ (commands : List (Library × Command)) (l : Ledger),
      (run commands empty l).2.live - l.live =
        Handle.allocationCounts (run commands empty l).1.handles) ∧
    (∀ (r : Role) (e : Entity r) (l : Ledger), ∃ l',
      e.release l = (.ok e.handle.allocationCount, l') ∧ l'.live = l.live - e.handle.allocationCount) ∧
    (∀ (h : Handle) (l : Ledger), (h.drop l).2.live = l.live - h.allocationCount) := by
  refine ⟨fun commands l => ?_, fun r e l => ⟨_, e.handle.release_eq l, rfl⟩, fun h l => ?_⟩
  · have live := (run_balanced commands (empty_balanced l)).live
    rw [owned] at live
    omega
  · rw [Handle.drop_eq]
    rfl

end Workspace

end PrivateRelease.Host
