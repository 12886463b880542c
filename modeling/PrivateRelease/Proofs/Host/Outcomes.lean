import PrivateRelease.Host.Signature
import PrivateRelease.Proofs.Boundary.Runs
import PrivateRelease.Proofs.Boundary.Instances

/-!
# What entry points hand over

A successful call hands over a new allocation of a known kind, hands over nothing, or takes an
allocation back; a failed one does not change the number of live allocations. Every entry point that
the symbol of a signature can name hands over what the signature announces.
-/

namespace PrivateRelease.Host

open Boundary

namespace Outcome

/-- What a payload is when it is returned as announced. -/
def Fits : Outcome → Payload → Prop
  | transformation, p => ∃ t, p = .reference (.transformation t)
  | measurement, p => ∃ m, p = .reference (.measurement m)
  | object, p => ∃ v, p = .reference (.object v)
  | view, p => ∃ m, p = .reference (.view m)
  | value, p => ∃ v, p = .reference (.object v)
  | text, p => ∃ s, p = .reference (.text s)
  | bool, _ => True
  | float, _ => True
  | unit, _ => True

/-- By how much a call that returns as announced raises the number of live allocations. -/
def owned : Outcome → Int
  | bool => 0
  | float => 0
  | unit => -1
  | _ => 1

/-- What an entry point returns; no entry point reads objects for the host. -/
def ofEntry : Entry → Outcome
  | .sliceAsObject => object
  | .objectType => text
  | .objectAsSlice => view
  | .objectText => text
  | .sliceFree => unit
  | .objectFree => unit
  | .textFree => unit
  | .transformationInvoke => object
  | .transformationMap => object
  | .transformationCheck => bool
  | .transformationDescribe => text
  | .transformationFree => unit
  | .measurementInvoke => object
  | .measurementMap => object
  | .measurementCheck => bool
  | .measurementDescribe => text
  | .measurementFree => unit
  | .chainTransformations => transformation
  | .chainMeasurement => measurement
  | .curveEpsilon => float
  | .identity _ => transformation
  | .clamp _ => transformation
  | .boundedSum _ => transformation
  | .boundedMean _ => transformation
  | .count _ => transformation
  | .laplace _ => measurement
  | .gaussian _ => measurement
  | .geometric _ => measurement
  | .compose => measurement
  | .amplify => measurement
  | .fixDelta _ => measurement

end Outcome

/-! ## Bodies of entry points -/

namespace Outcome

/-- A payload as announced, with the allocations that it owns. -/
def Delivered (o : Outcome) (p : Payload) (k : Int) : Prop := o.Fits p ∧ k = o.owned

end Outcome

variable {α : Type} {o : Outcome}

theorem settles_ofExcept (r : Except CallError α) : Settles (Call.ofExcept r) 0 Owes := by
  intro l
  cases r <;> simp [Call.ofExcept, Owes]

theorem settles_ofCore (r : Except Error α) : Settles (Call.ofCore r) 0 Owes :=
  settles_ofExcept _

theorem settles_sample (s : Sampling α) : Settles (Call.sample s) 0 Owes := by
  intro l
  unfold Call.sample
  cases s l.tape <;> simp [Owes]

theorem settles_give {r : Reference} (h : o.Fits (.reference r)) (ho : o.owned = 1) :
    Settles (Call.give r) 0 o.Delivered := by
  intro l
  refine ⟨h, ?_⟩
  simp only [Ledger.allocated, ho]
  omega

theorem settles_giveText (s : String) : Settles (Call.giveText s) 0 Outcome.text.Delivered :=
  settles_give ⟨_, rfl⟩ rfl

theorem settles_reclaim : Settles Call.reclaim 0 Outcome.unit.Delivered := by
  intro l
  refine ⟨trivial, ?_⟩
  simp only [Ledger.freed, Outcome.owned]
  omega

theorem settles_object (v : PrivateRelease.Value) :
    Settles (Call.give (.object v)) 0 Outcome.object.Delivered :=
  settles_give ⟨v, rfl⟩ rfl

theorem settles_transformation (t : Transformation) :
    Settles (Call.give (.transformation t)) 0 Outcome.transformation.Delivered :=
  settles_give ⟨t, rfl⟩ rfl

theorem settles_measurement (m : Measurement) :
    Settles (Call.give (.measurement m)) 0 Outcome.measurement.Delivered :=
  settles_give ⟨m, rfl⟩ rfl

variable [Elementary]

/-- A successful call of an entry point hands over what the entry point returns. -/
theorem settles_body (entry : Entry) (blob : Blob) (args : Arguments) :
    Settles (entry.body blob args) 0 (Outcome.ofEntry entry).Delivered := by
  cases entry with
  | sliceAsObject =>
    refine (settles_ofExcept _).step fun types => (settles_ofExcept _).step fun slice => ?_
    exact (settles_ofExcept _).step fun v => settles_object v
  | objectType => exact (settles_ofExcept _).step fun v => settles_giveText _
  | objectAsSlice =>
    refine (settles_ofExcept _).step fun v => (settles_ofCore _).step fun m => ?_
    exact settles_give ⟨m, rfl⟩ rfl
  | objectText => exact (settles_ofExcept _).step fun v => settles_giveText _
  | sliceFree =>
    refine (settles_ofExcept _).step fun r => ?_
    cases r with
    | view m => exact settles_reclaim
    | _ => exact .throw _
  | objectFree => exact (settles_ofExcept _).step fun _ => settles_reclaim
  | textFree =>
    refine (settles_ofExcept _).step fun r => ?_
    cases r with
    | text s => exact settles_reclaim
    | _ => exact .throw _
  | transformationInvoke =>
    refine (settles_ofExcept _).step fun (_, _) => (settles_ofExcept _).step fun t => ?_
    refine (settles_ofExcept _).step fun v => (settles_ofCore _).step fun w => settles_object w
  | transformationMap =>
    refine (settles_ofExcept _).step fun (_, _) => (settles_ofExcept _).step fun t => ?_
    refine (settles_ofExcept _).step fun v => (settles_ofCore _).step fun w => settles_object w
  | transformationCheck =>
    refine (settles_ofExcept _).step fun (_, _, _) => (settles_ofExcept _).step fun t => ?_
    refine (settles_ofExcept _).step fun d => (settles_ofExcept _).step fun bound => ?_
    exact (settles_ofCore _).step fun b => .pure ⟨trivial, rfl⟩
  | transformationDescribe =>
    refine (settles_ofExcept _).step fun (_, _) => (settles_ofExcept _).step fun t => ?_
    exact (settles_ofCore _).step fun f => settles_giveText _
  | transformationFree => exact (settles_ofExcept _).step fun _ => settles_reclaim
  | measurementInvoke =>
    refine (settles_ofExcept _).step fun (_, _) => (settles_ofExcept _).step fun m => ?_
    refine (settles_ofExcept _).step fun v => (settles_sample _).step fun w => settles_object w
  | measurementMap =>
    refine (settles_ofExcept _).step fun (_, _) => (settles_ofExcept _).step fun m => ?_
    refine (settles_ofExcept _).step fun v => (settles_ofCore _).step fun w => settles_object w
  | measurementCheck =>
    refine (settles_ofExcept _).step fun (_, _, _) => (settles_ofExcept _).step fun m => ?_
    refine (settles_ofExcept _).step fun d => (settles_ofExcept _).step fun bound => ?_
    exact (settles_ofCore _).step fun b => .pure ⟨trivial, rfl⟩
  | measurementDescribe =>
    refine (settles_ofExcept _).step fun (_, _) => (settles_ofExcept _).step fun m => ?_
    exact (settles_ofCore _).step fun f => settles_giveText _
  | measurementFree => exact (settles_ofExcept _).step fun _ => settles_reclaim
  | chainTransformations =>
    refine (settles_ofExcept _).step fun (_, _) => (settles_ofExcept _).step fun second => ?_
    refine (settles_ofExcept _).step fun first => (settles_ofCore _).step fun t => ?_
    exact settles_transformation t
  | chainMeasurement =>
    refine (settles_ofExcept _).step fun (_, _) => (settles_ofExcept _).step fun second => ?_
    refine (settles_ofExcept _).step fun first => (settles_ofCore _).step fun m => ?_
    exact settles_measurement m
  | curveEpsilon =>
    refine (settles_ofExcept _).step fun (_, _) => (settles_ofExcept _).step fun v => ?_
    refine (settles_ofExcept _).step fun delta => (settles_ofCore _).step fun x => ?_
    exact .pure ⟨trivial, rfl⟩
  | identity p =>
    refine (settles_ofExcept _).step fun _ => (settles_ofExcept _).step fun _ => ?_
    exact settles_transformation _
  | clamp q =>
    refine (settles_ofExcept _).step fun _ => (settles_ofExcept _).step fun (_, _) => ?_
    refine (settles_ofExcept _).step fun lower => (settles_ofExcept _).step fun upper => ?_
    exact (settles_ofCore _).step fun t => settles_transformation t
  | boundedSum p =>
    refine (settles_ofExcept _).step fun _ => (settles_ofExcept _).step fun (_, _) => ?_
    refine (settles_ofExcept _).step fun lower => (settles_ofExcept _).step fun upper => ?_
    exact (settles_ofCore _).step fun t => settles_transformation t
  | boundedMean p =>
    refine (settles_ofExcept _).step fun (_, _) => (settles_ofExcept _).step fun (_, _, _) => ?_
    refine (settles_ofExcept _).step fun lower => (settles_ofExcept _).step fun upper => ?_
    exact (settles_ofCore _).step fun t => settles_transformation t
  | count p =>
    refine (settles_ofExcept _).step fun _ => (settles_ofExcept _).step fun _ => ?_
    exact settles_transformation _
  | laplace p =>
    refine (settles_ofExcept _).step fun _ => (settles_ofExcept _).step fun scale => ?_
    exact (settles_ofCore _).step fun m => settles_measurement m
  | gaussian p =>
    refine (settles_ofExcept _).step fun _ => (settles_ofExcept _).step fun scale => ?_
    exact (settles_ofCore _).step fun m => settles_measurement m
  | geometric k =>
    refine (settles_ofExcept _).step fun _ => (settles_ofExcept _).step fun scale => ?_
    exact (settles_ofCore _).step fun m => settles_measurement m
  | compose =>
    refine (settles_ofExcept _).step fun (_, _, _) => (settles_ofExcept _).step fun ms => ?_
    refine (settles_ofExcept _).step fun rule => (settles_ofCore _).step fun m => ?_
    exact settles_measurement m
  | amplify =>
    refine (settles_ofExcept _).step fun types => (settles_ofExcept _).step fun (_, _) => ?_
    refine (settles_ofExcept _).step fun m => ?_
    split
    · refine (settles_ofCore _).step fun _ => (settles_ofCore _).step fun _ => ?_
      exact (settles_ofCore _).step fun m => settles_measurement m
    · exact .throw _
  | fixDelta p =>
    refine (settles_ofExcept _).step fun types => (settles_ofExcept _).step fun (_, _) => ?_
    refine (settles_ofExcept _).step fun m => (settles_ofCore _).step fun _ => ?_
    refine (settles_ofExcept _).step fun delta => (settles_ofCore _).step fun m => ?_
    exact settles_measurement m

end PrivateRelease.Host
