import PrivateRelease.Proofs.Host.Programs
import PrivateRelease.Proofs.Host.Refusals
import PrivateRelease.Proofs.Host.Representation

/-!
# Making entities

`Refines` relates a host action to what it denotes: a success to a success with related results, a
failure of the library to the failure that stands for it, and a refusal to some failure of the host's
own. Making an entity refines the constructor behind the entry point that the types choose.
-/

namespace PrivateRelease.Host

open Boundary Stop

section Refinement

variable {α β γ δ : Type} {R : α → β → Prop} {S : γ → δ → Prop}

/-- The action ends, on this tape, as the denotation says, and draws nothing. -/
def RefinesAt (a : Action α) (R : α → β → Prop) (t : Tape) : Except Stop β → Prop
  | .ok y => ∃ x, R x y ∧ Evaluates a t (.ok x) t
  | .error (.failed why) => Evaluates a t (.error (.ofCore why)) t
  | .error .refused => ∃ f : {f : Failure // f.IsOwn}, Evaluates a t (.error f) t

/-- The action does what the denotation says, on every tape. -/
def Refines (a : Action α) (R : α → β → Prop) (d : Except Stop β) : Prop :=
  ∀ t, RefinesAt a R t d

namespace Refines

variable {a : Action α} {d : Except Stop β}

theorem bind (h : Refines a R d) {f : α → Action γ} {g : β → Except Stop δ}
    (hf : ∀ x y, R x y → Refines (f x) S (g y)) : Refines (a >>= f) S (d >>= g) := by
  intro t
  have ha := h t
  match d with
  | .ok y =>
    obtain ⟨x, hxy, ha⟩ := ha
    have hfx := hf x y hxy t
    show RefinesAt (a >>= f) S t (g y)
    match g y, hfx with
    | .ok _, ⟨w, hw, hfx⟩ => exact ⟨w, hw, ha.bind_ok hfx⟩
    | .error (.failed _), hfx => exact ha.bind_ok hfx
    | .error .refused, ⟨f', hfx⟩ => exact ⟨f', ha.bind_ok hfx⟩
  | .error (.failed why) => exact ha.bind_error
  | .error .refused =>
    obtain ⟨f', ha⟩ := ha
    exact ⟨f', ha.bind_error⟩

theorem pure {x : α} {y : β} (h : R x y) : Refines (Pure.pure x) R (.ok y) := fun t =>
  ⟨x, h, .pure x t⟩

/-- The result is wrapped and relates to the same. -/
theorem map {S : γ → β → Prop} (h : Refines a R d) {f : α → γ} (hf : ∀ x y, R x y → S (f x) y) :
    Refines (f <$> a) S d := by
  have wrapped := h.bind (f := fun x => Pure.pure (f x)) (g := Pure.pure) fun x y hxy =>
    pure (hf x y hxy)
  rwa [← map_eq_pure_bind, bind_pure] at wrapped

end Refines

/-- A step of the host alone, then what depends on its result. -/
theorem refines_accept {r : Except Failure α} {f : α → Action γ} {g : α → Except Stop δ}
    (own : Hosted r) (h : ∀ x, r = .ok x → Refines (f x) S (g x)) :
    Refines (Action.ofExcept r >>= f) S (accept r >>= g) := by
  cases r with
  | ok x => exact h x rfl
  | error e => exact fun t => ⟨⟨e, own⟩, (evaluates_error rfl t).bind_error⟩

/-- A refusal that comes first. -/
theorem refines_refused {a : Action α} {f : Failure} (own : f.IsOwn)
    (h : ∀ t, Evaluates a t (.error f) t) : Refines a R (.error .refused) := fun t => ⟨⟨f, own⟩, h t⟩

end Refinement

namespace Stop

variable {α β γ : Type}

theorem accept_bind (r : Except Failure α) (f : α → Except Failure β) :
    accept (r >>= f) = accept r >>= fun x => accept (f x) := by
  cases r <;> rfl

end Stop

def Role.outcome : Role → Outcome
  | transformation => .transformation
  | measurement => .measurement

namespace Library

variable [Elementary] {l : Library} {r : Role} {s : Signature} {b : Bindings}
  {args : List Argument} {types : List Descriptor}

theorem make_refused (hb : b.WellFormed)
    (h : ∀ types frame, s.prepared l.features b args = .ok (types, frame) →
      Export.lookup (s.symbol types) = none) {R : Entity r → Mechanism → Prop} :
    Refines (l.make r s b args) R (.error .refused) := by
  have own := s.hosted_prepared l.features b args
  cases hp : s.prepared l.features b args with
  | error e =>
    exact refines_refused (own.isOwn hp) fun t =>
      (Signature.evaluates_call_refused hb hp t).bind_error
  | ok made =>
    have absent := Signature.evaluates_call_absent hb hp (h _ _ hp)
    exact refines_refused (f := .undispatched (.noEntry (s.symbol made.1))) rfl fun t =>
      (absent t).bind_error

/-- The types choose the entry point, or there is none. -/
theorem make_chooses {τ : Type} {x : Option τ} {entry : τ → Entry} {R : Entity r → Mechanism → Prop}
    {k : τ → Except Stop Mechanism} (hb : b.WellFormed) (ht : s.types b = .ok types)
    (hl : Export.lookup (s.symbol types) = x.map entry)
    (hk : ∀ c, x = some c → Export.lookup (s.symbol types) = some (entry c) →
      Refines (l.make r s b args) R (k c)) : Refines (l.make r s b args) R (some? x >>= k) := by
  cases x with
  | some c => exact hk c rfl hl
  | none =>
    refine make_refused hb fun types' frame hp => ?_
    obtain rfl : types = types' := Except.ok.inj (ht.symm.trans (Signature.types_of_prepared hp))
    exact hl

/-- An operation is refused if its feature is off. -/
theorem make_guarded {flag : String} {R : Entity r → Mechanism → Prop}
    {k : Unit → Except Stop Mechanism} (hb : b.WellFormed) (hf : s.features = [flag])
    (hk : l.features.require s.features s.qualifiedName = .ok () →
      Refines (l.make r s b args) R (k ())) :
    Refines (l.make r s b args) R (Stop.require (l.features.isEnabled flag) >>= k) := by
  cases h : l.features.isEnabled flag with
  | true => exact hk (by simp [Features.require, hf, h])
  | false =>
    refine make_refused hb fun types frame hp => ?_
    unfold Signature.prepared at hp
    simp [Features.require, hf, h] at hp

/-- What is made is what the constructor behind the entry point makes of the payloads. -/
theorem make_refines {ι τ : Type} {x : Except Failure ι} {frame : ι → Frame} {entry : Entry}
    {c : ι → Except Error τ} {w : τ → Mechanism} (hb : b.WellFormed)
    (hr : s.returns = r.outcome) (hl : Export.lookup (s.symbol types) = some entry)
    (hp : s.prepared l.features b args = x >>= fun i => .ok (types, frame i))
    (hc : ∀ i, Yields Error.WellFormed (fun _ => True) (c i))
    (built : ∀ i y, c i = .ok y → (w y).Built ∧ (w y).role = r)
    (body : ∀ i t, Evaluates (entry.body (.text (Descriptor.argsText types))
      (.ofList (frame i).payloads)) t
      ((c i).mapError .failed >>= fun y => .ok (payloadOf (w y))) t) :
    Refines (l.make r s b args) Entity.Represents
      (accept x >>= fun i => core (c i) >>= fun y => .ok (w y)) := by
  intro t
  cases x with
  | error e =>
    have own := (s.hosted_prepared l.features b args).isOwn hp
    exact ⟨⟨e, own⟩, (Signature.evaluates_call_refused hb hp t).bind_error⟩
  | ok i =>
    have hci := hc i
    have hbuilt := built i
    have hbody := body i t
    show RefinesAt (l.make r s b args) Entity.Represents t (core (c i) >>= fun y => .ok (w y))
    match c i, hci, hbuilt, hbody with
    | .error why, hci, _, hbody =>
      show Evaluates (l.make r s b args) t (.error (.ofCore why)) t
      rw [← Failure.ofCall_failed hci]
      exact (Signature.evaluates_call_error hb hp hl hbody).bind_error
    | .ok y, _, hbuilt, hbody =>
      obtain ⟨hm, rfl⟩ := hbuilt y rfl
      obtain ⟨e, -, he, made⟩ := Entity.evaluates_ofHandle hm (h := ⟨(w y).holding, []⟩) rfl t
      refine ⟨e, he, ?_⟩
      have read : Evaluates (Returned.ofPayload (payloadOf (w y)) s.returns) t
          (.ok (.handle ⟨(w y).holding, []⟩)) t := by
        rw [hr]
        cases w y <;> exact (evaluates_ok rfl t).bind_ok (.pure _ t)
      exact (Signature.evaluates_call hb hp hl hbody read).bind_ok
        ((evaluates_ok rfl t).bind_ok made)

end Library

end PrivateRelease.Host
