import PrivateRelease.Host.Frame
import PrivateRelease.Host.Reading
import PrivateRelease.Proofs.Boundary.Objects
import PrivateRelease.Proofs.Host.Calls

/-!
# Conversion of values

What marshalling does, without the memory in between: a host value at a type stands for a native
value, and a native value without curves for a host value. The memory that a host value is laid out
in is that of the native value it stands for, from which the native side makes that very value.
-/

namespace PrivateRelease

theorem Descriptor.element?_eq_some_iff {d e : Descriptor} :
    d.element? = some e ↔ d = .vector e := by
  unfold element? vector
  split
  · next name element =>
    split <;> simp_all
  · next h =>
    simpa using fun hd => h _ _ hd

end PrivateRelease

namespace PrivateRelease.Host

open Boundary (Memory Payload Reference)

/-! ## Between host and native values -/

namespace Value

mutual

/-- The native value of the given type that the host value stands for. -/
def toNative : Descriptor → Value → Except Failure PrivateRelease.Value
  | .primitive p, v => return .scalar p (← v.toScalar p)
  | .tuple items, v => do
    let parts ← v.demand (.tuple items) v.tuple?
    if parts.length ≠ items.length then
      throw (.unmarshalled (.componentCount v parts.length (.tuple items) items.length))
    return .tuple (← toNatives items parts)
  | .generic name args, v =>
    match (Descriptor.generic name args).element? with
    | none => throw (.unsupported (.encodedValue (.generic name args)))
    | some element => do
      let items ← v.demand (.generic name args) v.list?
      match element with
      | .primitive p => return .vector p (← toScalars p items)
      | element => throw (.unsupported (.encodedVector element))

/-- As many native values as there are both types and values. -/
def toNatives : List Descriptor → List Value → Except Failure (List PrivateRelease.Value)
  | d :: ds, v :: vs => do
    let x ← toNative d v
    return x :: (← toNatives ds vs)
  | _, _ => return []

end

mutual

/-- The host value that a native value is read as. -/
def ofNative : PrivateRelease.Value → Except Failure Value
  | .scalar p x => ofScalar p x
  | .vector p xs => return list (← ofScalars p xs)
  | .tuple items => return tuple (← ofNatives items)
  | .curve _ => .error (.ofCore (.badCast .curveView))

def ofNatives : List PrivateRelease.Value → Except Failure (List Value)
  | [] => return []
  | v :: vs => do
    let w ← ofNative v
    return w :: (← ofNatives vs)

end

mutual

/-- The native value is of the type asked for. -/
theorem toNative_eq_ok {d : Descriptor} {v : Value} {o : PrivateRelease.Value}
    (h : toNative d v = .ok o) : o.type = d ∧ o.IsPlain := by
  match d with
  | .primitive p =>
    rw [toNative] at h
    obtain ⟨x, _, h⟩ := bind_eq_ok_iff.mp h
    cases h
    exact ⟨rfl, .scalar p x⟩
  | .tuple items =>
    rw [toNative] at h
    obtain ⟨parts, _, h⟩ := bind_eq_ok_iff.mp h
    split at h
    · cases h
    next hl =>
    obtain ⟨os, ho, h⟩ := bind_eq_ok_iff.mp h
    cases h
    obtain ⟨ht, hp⟩ := toNatives_eq_ok (by omega) ho
    exact ⟨by rw [PrivateRelease.Value.type, ht], .tuple hp⟩
  | .generic name args =>
    rw [toNative] at h
    split at h
    · cases h
    next element he =>
    obtain ⟨items, _, h⟩ := bind_eq_ok_iff.mp h
    split at h
    · obtain ⟨xs, _, h⟩ := bind_eq_ok_iff.mp h
      cases h
      exact ⟨(Descriptor.element?_eq_some_iff.mp he).symm, .vector _ xs⟩
    · cases h

theorem toNatives_eq_ok {ds : List Descriptor} {vs : List Value} {os : List PrivateRelease.Value}
    (hl : vs.length = ds.length) (h : toNatives ds vs = .ok os) :
    PrivateRelease.Value.types os = ds ∧ ∀ o ∈ os, o.IsPlain := by
  match ds, vs with
  | [], [] =>
    cases h
    exact ⟨rfl, by simp⟩
  | d :: ds, v :: vs =>
    rw [toNatives] at h
    obtain ⟨o, ho, h⟩ := bind_eq_ok_iff.mp h
    obtain ⟨rest, hr, h⟩ := bind_eq_ok_iff.mp h
    cases h
    obtain ⟨rfl, hp⟩ := toNative_eq_ok ho
    obtain ⟨ht, hps⟩ := toNatives_eq_ok (by simpa using hl) hr
    exact ⟨by rw [PrivateRelease.Value.types, ht], by simpa using ⟨hp, hps⟩⟩

end

/-! ## Memory -/

theorem ofPrimitives_eq (p : Primitive) (xs : List p.Carrier) :
    ofPrimitives p xs = .ofVector p xs := by
  cases p <;> rfl

mutual

/-- A host value is laid out as the native value it stands for. -/
theorem toMemory_eq (d : Descriptor) (v : Value) :
    toMemory d v = Memory.layout <$> toNative d v := by
  match d with
  | .primitive p =>
    cases p with
    | numeric q => simp [toMemory, toNative, toScalar, Memory.layout, Memory.ofScalar]
    | _ => simp [toMemory, toNative, Memory.layout, Memory.ofScalar]
  | .tuple items =>
    simp only [toMemory, toNative, map_bind]
    refine bind_congr fun parts => ?_
    split
    · rfl
    · simp [toReferences_eq items parts, Memory.layout]
  | .generic name args =>
    simp only [toMemory, toNative]
    cases (Descriptor.generic name args).element? with
    | none => rfl
    | some element =>
      simp only [map_bind]
      refine bind_congr fun items => ?_
      cases element with
      | primitive p => simp [ofPrimitives_eq, Memory.layout]
      | _ => rfl

theorem toReferences_eq (ds : List Descriptor) (vs : List Value) :
    toReferences ds vs = Memory.layouts <$> toNatives ds vs := by
  match ds, vs with
  | d :: ds, v :: vs =>
    simp [toReferences, toNatives, toMemory_eq d v, toReferences_eq ds vs, Memory.layouts]
  | [], _ => simp [toReferences, toNatives, Memory.layouts]
  | _ :: _, [] => simp [toReferences, toNatives, Memory.layouts]

end

/-! ## Reading memory -/

theorem held_some {α : Type} {m : Memory} {xs : List α} (hn : m.isNull = false) (d : Descriptor) :
    held d m (some xs) = .ok xs := by
  cases m with
  | null n => cases hn
  | _ => rfl

theorem ofUtf8_ofText (s : String) : ofUtf8 (Memory.ofText s) = .ok s := by
  unfold ofUtf8
  rw [Memory.bytes?_ofText, held_some rfl, ok_bind, Memory.fromUTF8?_toUTF8]

theorem ofScalars_bool (bs : List Bool) : ofScalars .bool bs = .ok (bs.map bool) := by
  induction bs with
  | nil => rfl
  | cons b bs ih =>
    rw [ofScalars, ih]
    rfl

/-- The items in the memory of a vector. -/
theorem ofItems_ofVector (p : Primitive) (xs : List p.Carrier) :
    ofItems (Memory.ofVector p xs) p = ofScalars p xs := by
  cases p with
  | bool =>
    rw [ofScalars_bool]
    show (fun bs : List UInt8 => bs.map fun b => bool (b != 0)) <$>
      held (.primitive .bool) (Memory.ofBools xs) (Memory.ofBools xs).bytes? = .ok (xs.map bool)
    rw [Memory.ofBools, Memory.bytes?_bytes, held_some rfl]
    have read := congrArg (List.map bool) (Memory.toBools_ofBools xs)
    rw [List.map_map] at read
    exact congrArg Except.ok read
  | numeric q =>
    show held (.numeric q) (.numbers q xs) ((Memory.numbers q xs).numbers? q) >>=
      (ofScalars (.numeric q) ·) = ofScalars (.numeric q) xs
    rw [Memory.numbers?_numbers, held_some rfl]
    rfl
  | string =>
    have read : ofUtf8s (xs.map Memory.ofText) = ofScalars .string xs := by
      induction xs with
      | nil => rfl
      | cons s ss ih =>
        rw [List.map_cons, ofUtf8s, ofUtf8_ofText, ih, ofScalars]
        rfl
    exact read

/-- A value that is no tuple is read from its memory as what it stands for. -/
theorem ofMemory_ofScalar (p : Primitive) (x : p.Carrier) :
    ofMemory (Memory.ofScalar p x) (.primitive p) = ofScalar p x := by
  cases p with
  | bool =>
    show ofItems (Memory.ofVector .bool [x]) .bool >>= _ = _
    rw [ofItems_ofVector, ofScalars]
    cases ofScalar _ x <;> rfl
  | numeric q =>
    show ofItems (Memory.ofVector (.numeric q) [x]) (.numeric q) >>= _ = _
    rw [ofItems_ofVector, ofScalars]
    cases ofScalar _ x <;> rfl
  | string =>
    show (text <$> ofUtf8 (Memory.ofText x)) = _
    rw [ofUtf8_ofText]
    rfl

theorem ofMemory_ofVector (p : Primitive) (xs : List p.Carrier) :
    ofMemory (Memory.ofVector p xs) (.vector (.primitive p)) = list <$> ofScalars p xs := by
  show list <$> ofItems (Memory.ofVector p xs) p = _
  rw [ofItems_ofVector]

end Value

end PrivateRelease.Host
