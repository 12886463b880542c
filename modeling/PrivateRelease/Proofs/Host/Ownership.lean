import PrivateRelease.Host.Dispatch
import PrivateRelease.Proofs.Host.Calls
import PrivateRelease.Proofs.Host.Outcomes

/-!
# Ownership of temporaries

Every host action that calls operations ends with exactly what its result owns: the objects made for
a call, the views of an object that is read and the texts of errors are given back on every path,
however far the action got.
-/

namespace PrivateRelease.Host

open Boundary

/-! ## Clean-up -/

section CleanUp

variable {α : Type} {n : Int} {Q : α → Int → Prop}

theorem settles_ofResult {r : Except Failure α} (h : ∀ x, r = .ok x → Q x 0) :
    Settles (Action.ofExcept r) 0 Q := by
  intro l
  cases r with
  | error e => simp [Action.ofExcept]
  | ok x => simpa [Action.ofExcept] using h x rfl

theorem settles_result (r : Except Failure α) : Settles (Action.ofExcept r) 0 Owes :=
  settles_ofResult fun _ _ => rfl

/-- Clean-up that gives back `m` allocations. -/
def Frees (cleanUp : StateM Ledger Unit) (m : Nat) : Prop := ∀ l, (cleanUp l).2 = after l m

theorem frees_drop [Elementary] (h : Handle) : Frees h.drop h.allocationCount := fun l => by
  rw [Handle.drop_eq]

theorem frees_dropAll [Elementary] (hs : List Handle) :
    Frees (Handle.dropAll hs) (Handle.allocationCounts hs) := fun l => by
  rw [Handle.dropAll_eq]

theorem settles_andAlways {a : Action α} {cleanUp : StateM Ledger Unit} {m : Nat}
    (h : Settles a n Q) (hc : Frees cleanUp m) : Settles (a.andAlways cleanUp) (n + m) Q := by
  intro l
  have hl := h l
  unfold Action.andAlways
  generalize a l = out at hl
  rcases out with ⟨e | x, l'⟩
  · simp only [hc l', after] at hl ⊢
    omega
  · simp only [hc l', after] at hl ⊢
    rwa [show l'.live - m - l.live + (n + m) = l'.live - l.live + n by omega]

theorem settles_orElseRun {a : Action α} {cleanUp : StateM Ledger Unit} {m : Nat}
    (h : Settles a n Q) (hc : Frees cleanUp m) :
    Settles (a.orElseRun cleanUp) (n + m) fun x k => Q x (k - m) := by
  intro l
  have hl := h l
  unfold Action.orElseRun
  generalize a l = out at hl
  rcases out with ⟨e | x, l'⟩
  · simp only [hc l', after] at hl ⊢
    omega
  · simp only at hl ⊢
    rwa [show l'.live - l.live + (n + m) - m = l'.live - l.live + n by omega]

end CleanUp

variable [Elementary]

/-! ## Calls -/

theorem settles_perform {symbol blob : String} {args : List Payload} {o : Outcome}
    (h : ∀ entry, Export.lookup symbol = some entry →
      ∀ p k, (Outcome.ofEntry entry).Delivered p k → o.Delivered p k) :
    Settles (perform symbol blob args) 0 o.Delivered := by
  intro l
  cases he : Export.lookup symbol with
  | none =>
    have hi : invoke symbol blob args l = (.error (.undispatched (.noEntry symbol)), l) := by
      simp only [invoke, he]
      rfl
    rw [perform, run_bind_error hi]
    simp
  | some entry =>
    cases hb : blob.toList.contains '\x00' with
    | true =>
      have hi : invoke symbol blob args l = (.error (.unmarshalled (.nulInTypes blob)), l) := by
        simp only [invoke, he, hb]
        rfl
      rw [perform, run_bind_error hi]
      simp
    | false =>
      have body := settles_body entry (.text blob) (.ofList args) l
      rw [perform_of_lookup he hb]
      generalize entry.body (.text blob) (.ofList args) l = out at body
      rcases out with ⟨e | p, l'⟩
      · exact body
      · exact h entry he p _ body

theorem settles_performAs {symbol blob : String} {args : List Payload} {entry : Entry}
    (h : Export.lookup symbol = some entry) :
    Settles (perform symbol blob args) 0 (Outcome.ofEntry entry).Delivered := by
  refine settles_perform fun other he p k hp => ?_
  rw [h, Option.some.injEq] at he
  rwa [he]

/-- A handle together with all that its tree owns. -/
def Holds (h : Handle) (k : Int) : Prop := k = h.allocationCount

/-- What a call that makes a thing of this kind returns. -/
def Kind.outcome : Kind → Outcome
  | transformation => .transformation
  | measurement => .measurement
  | object => .object
  | view => .view

omit [Elementary] in
theorem settles_handle (kind : Kind) {p : Payload} {k : Int} (h : kind.outcome.Delivered p k) :
    Settles (Action.ofExcept (Handle.ofPayload kind p)) k Holds := by
  have made : ∃ holding, Handle.ofPayload kind p = .ok ⟨holding, []⟩ := by
    cases kind <;> obtain ⟨⟨x, rfl⟩, -⟩ := h <;> exact ⟨_, rfl⟩
  have one : k = 1 := by
    rw [h.2]
    cases kind <;> rfl
  obtain ⟨holding, hh⟩ := made
  rw [hh, one]
  exact .pure rfl

theorem settles_takeText {p : Payload} {k : Int} (h : Outcome.text.Delivered p k) :
    Settles (takeText p) k Owes := by
  obtain ⟨⟨s, rfl⟩, rfl⟩ := h
  intro l
  rw [takeText_text]
  simp only [Owes, Ledger.freed, Outcome.owned]
  omega

/-! ## Making objects and frames -/

namespace Frame

theorem settles_makeObject (v : Value) (d : Descriptor) : Settles (makeObject v d) 0 Holds := by
  refine (settles_result _).step fun m => ?_
  exact (settles_performAs Export.lookup_sliceAsObject).bind fun p k hp => settles_handle .object hp

/-- The allocations of the objects made for the call. -/
def owned (f : Frame) : Nat := Handle.allocationCounts f.temporaries

omit [Elementary] in
theorem owned_withTemporary (f : Frame) (h : Handle) :
    (f.withTemporary h).owned = f.owned + h.allocationCount := by
  have append : ∀ hs : List Handle, Handle.allocationCounts (hs ++ [h]) =
      Handle.allocationCounts hs + h.allocationCount := by
    intro hs
    induction hs with
    | nil => simp [Handle.allocationCounts]
    | cons g hs ih => simp [Handle.allocationCounts, ih, Nat.add_assoc]
  exact append f.temporaries

/-- A frame that owns `k` allocations more than before. -/
def Extends (before : Frame) (f : Frame) (k : Int) : Prop := (f.owned : Int) = before.owned + k

theorem settles_push (f : Frame) (b : Bindings) (p : Parameter) (a : Argument) :
    Settles (f.push b p a) 0 f.Extends := by
  have same : ∀ w, f.Extends (f.withPayload w) 0 := fun w => by simp [Extends, owned, withPayload]
  unfold push
  split
  · refine (settles_result _).step fun d => (settles_result _).step fun w => ?_
    exact .pure (same w)
  · refine (settles_result _).step fun d => (settles_result _).step fun r => ?_
    exact .pure (same _)
  · refine (settles_result _).step fun d => (settles_makeObject _ d).bind fun h k hk => ?_
    refine .pure ?_
    rw [Extends, owned_withTemporary, show k = h.allocationCount from hk]
    omega
  · exact .pure (same _)
  · exact .pure (same _)
  · exact .throw _

/-- All arguments are added, or all objects made for them are given back. -/
theorem settles_pushAll (b : Bindings) (args : List (Parameter × Argument)) (f : Frame) :
    Settles (pushAll b args f) f.owned fun f' k => k = f'.owned := by
  induction args generalizing f with
  | nil => exact .pure rfl
  | cons arg args ih =>
    obtain ⟨p, a⟩ := arg
    have pushed := settles_orElseRun (f.settles_push b p a) (frees_dropAll f.temporaries)
    rw [Int.zero_add] at pushed
    refine pushed.bind fun f' k hk => ?_
    have owned : k = f'.owned := by
      simp only [Extends, Frame.owned] at hk ⊢
      omega
    rw [owned]
    exact ih f'

end Frame

/-! ## Reading objects -/

theorem settles_viewing {α : Type} {object : Payload} {k : Memory → Action α}
    (hk : ∀ m, Settles (k m) 0 Owes) : Settles (viewing object k) 0 Owes := by
  refine (settles_performAs Export.lookup_objectAsSlice).bind fun p n hp => ?_
  obtain ⟨⟨m, rfl⟩, rfl⟩ := hp
  exact settles_andAlways (hk m) (frees_drop ⟨.view m, []⟩)

mutual

theorem settles_readObject (d : Descriptor) (object : Payload) :
    Settles (readObject d object) 0 Owes := by
  match d with
  | .tuple items =>
    rw [readObject]
    refine settles_viewing fun m => (settles_result _).step fun members => ?_
    split
    · exact .throw _
    · exact (settles_readObjects items members).step fun vs => .pure rfl
  | .primitive p =>
    rw [readObject]
    exact settles_viewing fun m => settles_result _
  | .generic name args =>
    rw [readObject]
    exact settles_viewing fun m => settles_result _

theorem settles_readObjects (ds : List Descriptor) (rs : List (Option Reference)) :
    Settles (readObjects ds rs) 0 Owes := by
  match ds, rs with
  | d :: ds, r :: rs =>
    simp only [readObjects]
    refine (settles_readObject d _).step fun v => ?_
    exact (settles_readObjects ds rs).step fun vs => .pure rfl
  | [], _ =>
    simp only [readObjects]
    exact .pure rfl
  | _ :: _, [] =>
    simp only [readObjects]
    exact .pure rfl

end

theorem settles_read (h : Handle) : Settles h.read 0 Owes := by
  refine (settles_performAs Export.lookup_objectType).bind fun p k hp => ?_
  refine (settles_takeText hp).bind fun name k hk => ?_
  rw [show k = 0 from hk]
  split
  · exact settles_readObject _ _
  · exact .throw _

/-! ## Signatures -/

/-- Whether what is returned is a handle, and not a value. -/
def Outcome.isHandle : Outcome → Bool
  | transformation => true
  | measurement => true
  | object => true
  | view => true
  | _ => false

/-- A result of the announced sort, with what it owns. -/
def Returned.Fulfils (o : Outcome) : Returned → Int → Prop
  | handle h, k => o.isHandle = true ∧ Holds h k
  | value _, k => o.isHandle = false ∧ k = 0
  | unit, _ => False

theorem settles_returned {p : Payload} {o : Outcome} {k : Int} (ho : o ≠ .unit)
    (hp : o.Delivered p k) : Settles (Returned.ofPayload p o) k (Returned.Fulfils o) := by
  cases o with
  | transformation =>
    exact (settles_handle .transformation hp).bind fun h k hk => .pure ⟨rfl, hk⟩
  | measurement =>
    exact (settles_handle .measurement hp).bind fun h k hk => .pure ⟨rfl, hk⟩
  | object => exact (settles_handle .object hp).bind fun h k hk => .pure ⟨rfl, hk⟩
  | view => exact (settles_handle .view hp).bind fun h k hk => .pure ⟨rfl, hk⟩
  | value =>
    refine (settles_handle .object hp).bind fun h k hk => ?_
    have read := settles_andAlways (settles_read h) (frees_drop h)
    rw [Int.zero_add] at read
    rw [show k = h.allocationCount from hk]
    exact read.bind fun v k hv => .pure ⟨rfl, hv⟩
  | bool =>
    rw [hp.2]
    exact (settles_result _).step fun v => .pure ⟨rfl, rfl⟩
  | float =>
    rw [hp.2]
    exact (settles_result _).step fun v => .pure ⟨rfl, rfl⟩
  | text => exact (settles_takeText hp).bind fun s k hs => .pure ⟨rfl, hs⟩
  | unit => contradiction

namespace Returned

omit [Elementary] in
theorem Fulfils.settles_toHandle {o : Outcome} (ho : o.isHandle = true) {r : Returned} {k : Int}
    (h : r.Fulfils o k) : Settles (Action.ofExcept r.toHandle) k Holds := by
  cases r with
  | handle _ => exact .pure h.2
  | value _ => simp [Fulfils, ho] at h
  | unit => exact h.elim

omit [Elementary] in
/-- A value owns nothing, so it may be refused. -/
theorem Fulfils.settles_result {α : Type} {o : Outcome} (ho : o.isHandle = false) {r : Returned}
    {k : Int} (h : r.Fulfils o k) (x : Except Failure α) : Settles (Action.ofExcept x) k Owes := by
  cases r with
  | handle _ => simp [Fulfils, ho] at h
  | value _ =>
    rw [h.2]
    exact Host.settles_result x
  | unit => exact h.elim

end Returned

namespace Signature

/-- Whether what an entry point returns can be read as announced. -/
def isReturned (announced returned : Outcome) : Bool :=
  announced == returned || announced == .value && returned == .object

omit [Elementary] in
theorem delivered_of_isReturned {o o' : Outcome} (h : isReturned o o' = true) {p : Payload} {k : Int}
    (hp : o'.Delivered p k) : o.Delivered p k := by
  simp only [isReturned, Bool.or_eq_true, Bool.and_eq_true, beq_iff_eq] at h
  rcases h with rfl | ⟨rfl, rfl⟩
  · exact hp
  · exact hp

omit [Elementary] in
/-- The catalog and the table of exports agree on what every operation returns. -/
theorem catalog_returns : ∀ s ∈ catalog,
    (∃ e ∈ Export.all, e.module = s.module ∧ e.operation = s.name) ∧
    ∀ e ∈ Export.all, e.module = s.module → e.operation = s.name →
      isReturned s.returns (Outcome.ofEntry e.entry) = true := by
  decide +kernel

omit [Elementary] in
theorem catalog_ne_unit : ∀ s ∈ catalog, s.returns ≠ .unit := by
  decide

omit [Elementary] in
/-- An entry point that the symbol of a signature names is one of the signature's operation. -/
theorem exists_of_lookup {s : Signature} (hs : s ∈ catalog) {types : List Descriptor} {entry : Entry}
    (h : Export.lookup (s.symbol types) = some entry) :
    ∃ e ∈ Export.all, e.module = s.module ∧ e.operation = s.name ∧ e.entry = entry ∧
      Descriptor.tailChars e.types =
        Descriptor.tailChars (if s.instantiated then types else []) := by
  obtain ⟨e, he, hsym, hentry⟩ := Export.exists_of_lookup h
  obtain ⟨⟨named, hn, hnm, hno⟩, -⟩ := catalog_returns s hs
  obtain ⟨hm, ho, ht⟩ := Descriptor.symbol_inj (Export.isWord_module he)
    (hnm ▸ Export.isWord_module hn) (Export.isWord_operation he)
    (hno ▸ Export.isWord_operation hn) hsym
  exact ⟨e, he, hm, ho, hentry, ht⟩

theorem settles_call {s : Signature} (hs : s ∈ catalog) (features : Features) (b : Bindings)
    (args : List Argument) : Settles (s.call features b args) 0 (Returned.Fulfils s.returns) := by
  refine (settles_result _).step fun _ => ?_
  split
  · exact .throw _
  · refine (settles_result _).step fun types => ?_
    refine (Frame.settles_pushAll b _ .empty).bind fun frame k hk => ?_
    have performed : ∀ payloads,
        Settles (perform (s.symbol types) (Descriptor.argsText types) payloads) 0
          s.returns.Delivered := by
      refine fun payloads => settles_perform fun entry he p k hp => ?_
      obtain ⟨e, hmem, hm, ho, rfl, -⟩ := exists_of_lookup hs he
      exact delivered_of_isReturned ((catalog_returns s hs).2 e hmem hm ho) hp
    have run : Settles (do
        let p ← perform (s.symbol types) (Descriptor.argsText types) frame.payloads
        Returned.ofPayload p s.returns) 0 (Returned.Fulfils s.returns) :=
      (performed _).bind fun p k hp => settles_returned (catalog_ne_unit s hs) hp
    have settled := settles_andAlways run (frees_dropAll frame.temporaries)
    rw [hk, ← Int.zero_add (frame.owned : Int)]
    simp only [perform, bind_assoc] at settled
    exact settled

end Signature

end PrivateRelease.Host
