import Mathlib.Data.List.Basic
import PrivateRelease.Boundary.Entry

/-!
# Slots

Which arguments an entry point reads through a reference to a scalar, and at which type. A slot is its
bytes, so nothing but the type at which it is read says what it holds. Apart from what is read from the
slots at these types, an entry point knows nothing of them.
-/

namespace PrivateRelease.Boundary

namespace Arguments

variable {α : Type} {ps qs : List Payload}

theorem take_ofList_error {n : Nat} (h : ps.length ≠ n) :
    (ofList ps).take n = .error (.argumentCount n ps.length) := if_pos h

/-! Calls that take so many arguments agree if they agree where there are so many. -/

theorem one_bind_congr {k k' : Payload → Except CallError α} (length : ps.length = qs.length)
    (h : ∀ p p', ps = [p] → qs = [p'] → k p = k' p') :
    ((ofList ps).one >>= k) = (ofList qs).one >>= k' := by
  by_cases hn : ps.length = 1
  · obtain ⟨p, rfl⟩ := List.length_eq_one_iff.mp hn
    obtain ⟨p', rfl⟩ := List.length_eq_one_iff.mp (length ▸ hn)
    exact h p p' rfl rfl
  · rw [one, one, take_ofList_error hn, take_ofList_error (length ▸ hn), length]
    rfl

theorem two_bind_congr {k k' : Payload × Payload → Call α} (length : ps.length = qs.length)
    (h : ∀ p q p' q', ps = [p, q] → qs = [p', q'] → k (p, q) = k' (p', q')) :
    (Call.ofExcept (ofList ps).two >>= k) = Call.ofExcept (ofList qs).two >>= k' := by
  by_cases hn : ps.length = 2
  · obtain ⟨p, q, rfl⟩ := List.length_eq_two.mp hn
    obtain ⟨p', q', rfl⟩ := List.length_eq_two.mp (length ▸ hn)
    exact h p q p' q' rfl rfl
  · rw [two, two, take_ofList_error hn, take_ofList_error (length ▸ hn), length]
    rfl

theorem three_bind_congr {k k' : Payload × Payload × Payload → Call α}
    (length : ps.length = qs.length)
    (h : ∀ p q r p' q' r', ps = [p, q, r] → qs = [p', q', r'] → k (p, q, r) = k' (p', q', r')) :
    (Call.ofExcept (ofList ps).three >>= k) = Call.ofExcept (ofList qs).three >>= k' := by
  by_cases hn : ps.length = 3
  · obtain ⟨p, q, r, rfl⟩ := List.length_eq_three.mp hn
    obtain ⟨p', q', r', rfl⟩ := List.length_eq_three.mp (length ▸ hn)
    exact h p q r p' q' r' rfl rfl
  · rw [three, three, take_ofList_error hn, take_ofList_error (length ▸ hn), length]
    rfl

end Arguments

namespace Entry

/-- The type at which an entry point reads the slot that the argument at a place refers to, if it reads
one there. -/
def slotAt : Entry → Nat → Option Primitive
  | clamp q, 0 => some (.numeric q)
  | clamp q, 1 => some (.numeric q)
  | boundedSum p, 0 => some (float p)
  | boundedSum p, 1 => some (float p)
  | boundedMean p, 0 => some (float p)
  | boundedMean p, 1 => some (float p)
  | laplace p, 0 => some (float p)
  | gaussian p, 0 => some (float p)
  | curveEpsilon, 1 => some (float .double)
  | compose, 2 => some (float .double)
  | fixDelta p, 1 => some (float p)
  | _, _ => none

/-- What is read from two payloads as slots of a type is the same; without a type, the payloads are. -/
def SameRead (p q : Payload) : Option Primitive → Prop
  | some s => ∀ what, p.toSlot s what = q.toSlot s what
  | none => p = q

/-- Arguments of which the slots may differ, but not in what is read from them. -/
structure Indistinct (entry : Entry) (ps qs : List Payload) : Prop where
  length : ps.length = qs.length
  same : ∀ i p q, ps[i]? = some p → qs[i]? = some q → SameRead p q (entry.slotAt i)

variable {entry : Entry} {ps qs : List Payload}

theorem Indistinct.eq_of_none (h : entry.Indistinct ps qs) (none : ∀ i, entry.slotAt i = none) :
    ps = qs := by
  refine List.ext_getElem? fun i => ?_
  cases hp : ps[i]? with
  | none =>
    rw [List.getElem?_eq_none_iff, h.length] at hp
    rw [List.getElem?_eq_none hp]
  | some p =>
    obtain ⟨q, hq⟩ : ∃ q, qs[i]? = some q := by
      obtain ⟨less, -⟩ := List.getElem?_eq_some_iff.mp hp
      exact ⟨_, List.getElem?_eq_getElem (h.length ▸ less)⟩
    have same := h.same i p q hp hq
    rw [none i] at same
    rw [hq, show p = q from same]

theorem compositionRule_congr (n : Nat) {p q : Payload}
    (h : SameRead p q (some (float .double))) : compositionRule n p = compositionRule n q := by
  unfold compositionRule
  split
  · rfl
  · exact congrArg (· >>= _) (h "delta_prime")
  · rfl

theorem scale_congr {s : Primitive} (h : entry.Indistinct ps qs) (read : entry.slotAt 0 = some s) :
    ((Arguments.ofList ps).one >>= fun p => p.toSlot s "scale") =
      (Arguments.ofList qs).one >>= fun p => p.toSlot s "scale" := by
  refine Arguments.one_bind_congr h.length ?_
  rintro scale scale' rfl rfl
  have same := h.same 0 scale scale' rfl rfl
  rw [read] at same
  exact same "scale"

variable [Elementary]

/-- An entry point knows of its slots what it reads from them at their types. -/
theorem body_congr (h : entry.Indistinct ps qs) (blob : Blob) :
    entry.body blob (.ofList ps) = entry.body blob (.ofList qs) := by
  cases entry with
  | clamp q =>
    refine bind_congr fun _ => Arguments.two_bind_congr h.length ?_
    rintro lower upper lower' upper' rfl rfl
    have low := h.same 0 lower lower' rfl rfl "lower"
    have high := h.same 1 upper upper' rfl rfl "upper"
    dsimp only
    rw [low, high]
  | boundedSum p =>
    refine bind_congr fun _ => Arguments.two_bind_congr h.length ?_
    rintro lower upper lower' upper' rfl rfl
    have low := h.same 0 lower lower' rfl rfl "lower"
    have high := h.same 1 upper upper' rfl rfl "upper"
    dsimp only
    rw [low, high]
  | boundedMean p =>
    refine bind_congr fun _ => Arguments.three_bind_congr h.length ?_
    rintro lower upper n lower' upper' n' rfl rfl
    have low := h.same 0 lower lower' rfl rfl "lower"
    have high := h.same 1 upper upper' rfl rfl "upper"
    have size : n = n' := h.same 2 n n' rfl rfl
    dsimp only
    rw [low, high, size]
  | laplace p => exact bind_congr fun _ => congrArg (Call.ofExcept · >>= _) (scale_congr h rfl)
  | gaussian p => exact bind_congr fun _ => congrArg (Call.ofExcept · >>= _) (scale_congr h rfl)
  | curveEpsilon =>
    refine Arguments.two_bind_congr h.length ?_
    rintro c delta c' delta' rfl rfl
    have curve : c = c' := h.same 0 c c' rfl rfl
    have read := h.same 1 delta delta' rfl rfl "delta"
    dsimp only
    rw [curve, read]
  | compose =>
    refine Arguments.three_bind_congr h.length ?_
    rintro list rule x list' rule' x' rfl rfl
    have list : list = list' := h.same 0 list list' rfl rfl
    have rule : rule = rule' := h.same 1 rule rule' rfl rfl
    dsimp only
    rw [list, rule, compositionRule_congr _ (h.same 2 x x' rfl rfl)]
  | fixDelta p =>
    refine bind_congr fun _ => Arguments.two_bind_congr h.length ?_
    rintro m delta m' delta' rfl rfl
    have part : m = m' := h.same 0 m m' rfl rfl
    have read := h.same 1 delta delta' rfl rfl "delta"
    dsimp only
    rw [part, read]
  | _ => rw [h.eq_of_none fun _ => rfl]

end Entry

end PrivateRelease.Boundary
