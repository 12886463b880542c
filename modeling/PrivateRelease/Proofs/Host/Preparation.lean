import PrivateRelease.Host.Dispatch
import PrivateRelease.Proofs.Host.Evaluation

/-!
# Prepared calls

What the host puts together before it calls: the types of the operation and a payload for every
argument. A call comes to what its entry point does with them, and to a failure if they cannot be put
together or nothing is exported for the types.
-/

namespace PrivateRelease

/-! ## Templates -/

/-- Only what can be read back is bound. -/
def Bindings.WellFormed (b : Bindings) : Prop := ∀ x ∈ b, x.2.WellFormed

theorem Bindings.WellFormed.lookup {b : Bindings} (hb : b.WellFormed) {name : String}
    {d : Descriptor} (h : b.lookup name = some d) : d.WellFormed := by
  obtain ⟨before, after, rfl, -⟩ := List.lookup_eq_some_iff.mp h
  exact hb (name, d) (by simp)

namespace Descriptor

theorem WellFormed.substitute {b : Bindings}
    (hb : ∀ name e, b.lookup name = some e → e.WellFormed) {d : Descriptor} (h : d.WellFormed) :
    (d.substitute b).WellFormed := by
  induction h with
  | primitive p => exact .primitive p
  | tuple _ ih =>
    rw [Descriptor.substitute, substituteList_eq_map]
    exact .tuple (by simpa using ih)
  | generic hn h ih =>
    rename_i name args
    cases args with
    | nil =>
      rw [Descriptor.substitute]
      cases hl : b.lookup name with
      | none => exact .generic hn (by simp)
      | some d => exact hb name d hl
    | cons arg args =>
      rw [Descriptor.substitute, substituteList_eq_map]
      exact .generic hn (by simpa using ih)

end Descriptor

namespace Host

open Boundary

theorem template_wellFormed_of_lookup {b : Bindings}
    (hb : ∀ name e, b.lookup name = some e → e.WellFormed) {shape : String} {d : Descriptor}
    (h : template shape b = .ok d) : d.WellFormed := by
  unfold template at h
  split at h
  · next e hp =>
    cases h
    exact (Descriptor.parse_eq_ok_iff.mp hp).1.substitute hb
  · cases h

theorem template_wellFormed {b : Bindings} (hb : b.WellFormed) {shape : String} {d : Descriptor}
    (h : template shape b = .ok d) : d.WellFormed :=
  template_wellFormed_of_lookup (fun _ _ => hb.lookup) h

theorem template_toText (d : Descriptor) (h : d.WellFormed) (b : Bindings) :
    template d.toText b = .ok (d.substitute b) := by
  simp only [template, Descriptor.parse_toText h]

/-- A type parameter stands for what is bound to it. -/
theorem template_named {name : String} (h : Descriptor.IsName name) {b : Bindings} {d : Descriptor}
    (hb : b.lookup name = some d) : template name b = .ok d := by
  have named := template_toText (.named name) (.generic h (by simp)) b
  simpa [Descriptor.toText, Descriptor.named, Descriptor.chars, Descriptor.substitute, hb] using named

theorem template_primitive (p : Primitive) (b : Bindings) :
    template p.name b = .ok (.primitive p) := by
  have named := template_toText (.primitive p) (.primitive p) b
  simpa [Descriptor.toText, Descriptor.chars, Descriptor.substitute] using named

/-! ## Frames -/

namespace Frame

/-- The frame with an argument added, made without a call. -/
def pushed (f : Frame) (b : Bindings) (p : Parameter) (a : Argument) : Except Failure Frame :=
  match p.passing, a with
  | .byValue, .value v => do return f.withPayload (← v.toWord (← template p.shape b))
  | .byReference, .value v => do
    return f.withPayload (.reference (← v.toSlot (← template p.shape b)))
  | .object, .value v => do
    return f.withTemporary (.ofObject (← v.toNative (← template p.shape b)))
  | .handle, .handle h => return f.withPayload h.payload
  | .handles, .handles hs =>
    return f.withPayload (.reference (.slice (.references (hs.map handleReference))))
  | passing, a => throw (.unmarshalled (.passing p.name passing a.description))

section Modes

variable {f : Frame} {b : Bindings} {p : Parameter} {d : Descriptor} {v : Value}

theorem pushed_byValue (hp : p.passing = .byValue) (hs : template p.shape b = .ok d) :
    f.pushed b p (.value v) = (v.toWord d >>= fun w => .ok (f.withPayload w)) := by
  unfold pushed
  rw [hp, hs]
  rfl

theorem pushed_byReference (hp : p.passing = .byReference) (hs : template p.shape b = .ok d) :
    f.pushed b p (.value v) = (v.toSlot d >>= fun r => .ok (f.withPayload (.reference r))) := by
  unfold pushed
  rw [hp, hs]
  rfl

theorem pushed_object (hp : p.passing = .object) (hs : template p.shape b = .ok d) :
    f.pushed b p (.value v) =
      (v.toNative d >>= fun o => .ok (f.withTemporary (.ofObject o))) := by
  unfold pushed
  rw [hp, hs]
  rfl

theorem pushed_handle (hp : p.passing = .handle) (h : Handle) :
    f.pushed b p (.handle h) = .ok (f.withPayload h.payload) := by
  unfold pushed
  rw [hp]
  rfl

end Modes

def pushedAll (b : Bindings) : List (Parameter × Argument) → Frame → Except Failure Frame
  | [], f => return f
  | (p, a) :: rest, f => do pushedAll b rest (← f.pushed b p a)

variable [Elementary]

theorem evaluates_push (f : Frame) {b : Bindings} (hb : b.WellFormed) (p : Parameter) (a : Argument)
    (t : Tape) : Evaluates (f.push b p a) t (f.pushed b p a) t := by
  unfold push pushed
  generalize p.passing = passing
  cases passing with
  | byValue =>
    cases a with
    | value v =>
      refine (evaluates_ofExcept _ t).bind fun d _ => ?_
      exact (evaluates_ofExcept _ t).bind fun w _ => .pure _ t
    | _ => exact .throw _ t
  | byReference =>
    cases a with
    | value v =>
      refine (evaluates_ofExcept _ t).bind fun d _ => ?_
      exact (evaluates_ofExcept _ t).bind fun r _ => .pure _ t
    | _ => exact .throw _ t
  | object =>
    cases a with
    | value v =>
      refine (evaluates_ofExcept _ t).bind fun d hd => ?_
      have made := evaluates_makeObject (template_wellFormed hb hd) v t
      have added := made.bind (f := fun h => pure (f.withTemporary h))
        (g := fun h => pure (f.withTemporary h)) fun h _ => .pure _ t
      rwa [bind_map_left] at added
    | _ => exact .throw _ t
  | handle =>
    cases a with
    | handle h => exact .pure _ t
    | _ => exact .throw _ t
  | handles =>
    cases a with
    | handles hs => exact .pure _ t
    | _ => exact .throw _ t

theorem evaluates_pushAll {b : Bindings} (hb : b.WellFormed) (args : List (Parameter × Argument))
    (f : Frame) (t : Tape) : Evaluates (pushAll b args f) t (pushedAll b args f) t := by
  induction args generalizing f with
  | nil => exact .pure f t
  | cons arg args ih =>
    obtain ⟨p, a⟩ := arg
    have pushed := evaluates_orElseRun (f.evaluates_push hb p a t) (keepsTape_dropAll f.temporaries)
    exact pushed.bind fun f' _ => ih f'

end Frame

/-! ## Calls -/

namespace Signature

/-- The types of a call and its frame, made without a call. -/
def prepared (s : Signature) (features : Features) (b : Bindings) (args : List Argument) :
    Except Failure (List Descriptor × Frame) := do
  features.require s.features s.qualifiedName
  if args.length ≠ s.parameters.length then
    throw (.unmarshalled (.argumentCount s.qualifiedName s.parameters.length args.length))
  let types ← s.types b
  return (types, ← Frame.pushedAll b (s.parameters.zip args) .empty)

variable {s : Signature} {features : Features} {b : Bindings} {args : List Argument}
  {types : List Descriptor} {frame : Frame} {t t' : Tape}

theorem prepared_eq (hf : features.require s.features s.qualifiedName = .ok ())
    (hn : args.length = s.parameters.length) (ht : s.types b = .ok types) :
    s.prepared features b args =
      (Frame.pushedAll b (s.parameters.zip args) .empty >>= fun frame => .ok (types, frame)) := by
  unfold prepared
  rw [hf]
  simp only [hn, ht, ne_eq, not_true_eq_false, if_false]
  rfl

variable [Elementary]

omit [Elementary] in
theorem types_wellFormed (hb : b.WellFormed) (h : s.types b = .ok types) :
    ∀ d ∈ types, d.WellFormed := by
  refine forall_mem_of_mapM (fun name _ d hd => ?_) h
  split at hd
  · next hl =>
    cases hd
    exact hb.lookup hl
  · cases hd

/-- The call itself, and reading what it returns. -/
def finish (s : Signature) (types : List Descriptor) (frame : Frame) : Action Returned := do
  let p ← perform (s.symbol types) (Descriptor.argsText types) frame.payloads
  Returned.ofPayload p s.returns

/-- A call is prepared, or refused, before anything is called. -/
theorem evaluates_call_cases (hb : b.WellFormed) (t : Tape) :
    match s.prepared features b args with
    | .error e => Evaluates (s.call features b args) t (.error e) t
    | .ok (types, frame) => ∀ {r t'}, Evaluates (s.finish types frame) t r t' →
        Evaluates (s.call features b args) t r t' := by
  unfold prepared call
  cases hf : features.require s.features s.qualifiedName with
  | error e => exact (evaluates_error rfl t).bind_error
  | ok u =>
    by_cases hn : args.length = s.parameters.length
    case neg =>
      simp only [ne_eq, hn, not_false_eq_true, if_true]
      exact (evaluates_ok rfl t).bind_ok (Evaluates.throw _ t).bind_error
    simp only [ne_eq, hn, not_true_eq_false, if_false]
    cases ht : s.types b with
    | error e => exact (evaluates_ok rfl t).bind_ok (evaluates_error rfl t).bind_error
    | ok types =>
      have pushed := Frame.evaluates_pushAll hb (s.parameters.zip args) .empty t
      cases hp : Frame.pushedAll b (s.parameters.zip args) .empty with
      | error e =>
        rw [hp] at pushed
        exact (evaluates_ok rfl t).bind_ok ((evaluates_ok rfl t).bind_ok pushed.bind_error)
      | ok frame =>
        rw [hp] at pushed
        intro r t' h
        have finished := evaluates_andAlways h (keepsTape_dropAll frame.temporaries)
        simp only [finish, perform, bind_assoc] at finished
        exact (evaluates_ok rfl t).bind_ok ((evaluates_ok rfl t).bind_ok (pushed.bind_ok finished))

theorem evaluates_call_refused {e : Failure} (hb : b.WellFormed)
    (hp : s.prepared features b args = .error e) (t : Tape) :
    Evaluates (s.call features b args) t (.error e) t := by
  have call := @evaluates_call_cases s features b args _ hb t
  rwa [hp] at call

theorem evaluates_call_absent (hb : b.WellFormed)
    (hp : s.prepared features b args = .ok (types, frame))
    (hl : Export.lookup (s.symbol types) = none) (t : Tape) :
    Evaluates (s.call features b args) t (.error (.undispatched (.noEntry (s.symbol types)))) t := by
  have call := @evaluates_call_cases s features b args _ hb t
  rw [hp] at call
  refine call ?_
  have invoked : Evaluates (invoke (s.symbol types) (Descriptor.argsText types) frame.payloads) t
      (.error (.undispatched (.noEntry (s.symbol types)))) t := by
    unfold invoke
    rw [hl]
    exact .throw _ t
  exact invoked.bind_error.bind_error

omit [Elementary] in
theorem types_of_prepared (hp : s.prepared features b args = .ok (types, frame)) :
    s.types b = .ok types := by
  unfold prepared at hp
  obtain ⟨_, _, hp⟩ := bind_eq_ok_iff.mp hp
  split at hp
  · cases hp
  · obtain ⟨types', ht, hp⟩ := bind_eq_ok_iff.mp hp
    obtain ⟨frame', _, hp⟩ := bind_eq_ok_iff.mp hp
    cases hp
    exact ht

omit [Elementary] in
theorem nulFree_blob (hb : b.WellFormed) (hp : s.prepared features b args = .ok (types, frame)) :
    Text.NulFree (Descriptor.argsText types) :=
  Descriptor.nulFree_argsText (types_wellFormed hb (types_of_prepared hp))

section Entry

variable {entry : Entry} {p : Payload} {r : Except Failure Returned} {e : CallError} {t'' : Tape}

/-- A call comes to what its entry point returns, read as announced. -/
theorem evaluates_call (hb : b.WellFormed) (hp : s.prepared features b args = .ok (types, frame))
    (hl : Export.lookup (s.symbol types) = some entry)
    (body : Evaluates (entry.body (.text (Descriptor.argsText types)) (.ofList frame.payloads)) t
      (.ok p) t')
    (read : Evaluates (Returned.ofPayload p s.returns) t' r t'') :
    Evaluates (s.call features b args) t r t'' := by
  have call := @evaluates_call_cases s features b args _ hb t
  rw [hp] at call
  exact call ((evaluates_perform hl (nulFree_blob hb hp) body).bind_ok read)

theorem evaluates_call_error (hb : b.WellFormed)
    (hp : s.prepared features b args = .ok (types, frame))
    (hl : Export.lookup (s.symbol types) = some entry)
    (body : Evaluates (entry.body (.text (Descriptor.argsText types)) (.ofList frame.payloads)) t
      (.error e) t') :
    Evaluates (s.call features b args) t (.error (.ofCall e)) t' := by
  have call := @evaluates_call_cases s features b args _ hb t
  rw [hp] at call
  exact call (evaluates_perform hl (nulFree_blob hb hp) body).bind_error

end Entry

end Signature

end Host

end PrivateRelease
