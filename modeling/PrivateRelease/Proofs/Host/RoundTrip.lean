import Mathlib.Data.List.Forall2
import PrivateRelease.Proofs.Host.Preparation
import PrivateRelease.Proofs.Number.Rounding

/-!
# Values there and back

A host value is made into an object of a type exactly if it fits the type, and is read back as it was
up to what float types do to numbers. An object without curves is read exactly if no integer in it is
beyond the host's own, and what was read is made into the same object again.
-/

namespace PrivateRelease

theorem Bounded.ofInt?_eq_some_iff {k : IntegerType} {n : Int} {m : Bounded k} :
    ofInt? k n = some m ↔ n = m.val := by
  constructor
  · intro h
    unfold ofInt? at h
    split at h
    · cases h
      rfl
    · cases h
  · rintro rfl
    exact ofInt?_val m

namespace Primitive

/-- The same scalar, up to the fractions of NaNs. -/
def Alike : {p : Primitive} → p.Carrier → p.Carrier → Prop
  | numeric (.float _), x, y => Binary.Alike x y
  | bool, x, y => x = y
  | numeric (.integer _), x, y => x = y
  | string, x, y => x = y

end Primitive

namespace Value

/-- The same value, up to the fractions of NaNs. -/
inductive Alike : Value → Value → Prop
  | scalar {p : Primitive} {x y : p.Carrier} (h : Primitive.Alike x y) :
    Alike (.scalar p x) (.scalar p y)
  | vector {p : Primitive} {xs ys : List p.Carrier} (h : List.Forall₂ Primitive.Alike xs ys) :
    Alike (.vector p xs) (.vector p ys)
  | tuple {vs ws : List Value} (h : List.Forall₂ Alike vs ws) : Alike (.tuple vs) (.tuple ws)

/-- An integer above the largest one of a host is in the value. -/
inductive Exceeds : Value → Prop
  | scalar {n : Bounded .u64} (h : IntegerType.greatest .i64 < n.val) :
    Exceeds (.scalar (.numeric (.integer .u64)) n)
  | vector {ns : List (Bounded .u64)} {n : Bounded .u64} (hn : n ∈ ns)
    (h : IntegerType.greatest .i64 < n.val) :
    Exceeds (.vector (.numeric (.integer .u64)) ns)
  | tuple {vs : List Value} {v : Value} (hv : v ∈ vs) (h : Exceeds v) : Exceeds (.tuple vs)

theorem exceeds_vector_iff {p : Primitive} {xs : List p.Carrier} :
    (vector p xs).Exceeds ↔ ∃ x ∈ xs, (scalar p x).Exceeds := by
  constructor
  · rintro (_ | ⟨hn, h⟩)
    exact ⟨_, hn, .scalar h⟩
  · rintro ⟨x, hx, h⟩
    cases h with
    | scalar h => exact .vector hx h

theorem exceeds_tuple_iff {vs : List Value} : (tuple vs).Exceeds ↔ ∃ v ∈ vs, v.Exceeds := by
  constructor
  · intro h
    cases h with
    | tuple hv h => exact ⟨_, hv, h⟩
  · rintro ⟨v, hv, h⟩
    exact .tuple hv h

end Value

namespace Host

open Boundary (Ledger Evaluates)

namespace Value

/-! ## Fitting a type -/

/-- The value can be given where one of the type is asked for. -/
inductive Fits : Descriptor → Value → Prop
  | bool (b : Bool) : Fits (.primitive .bool) (.bool b)
  | integer {k : IntegerType} {n : Bounded .i64} (h : k.least ≤ n.val ∧ n.val ≤ k.greatest) :
    Fits (.integer k) (.int n)
  | whole (p : Precision) (n : Bounded .i64) : Fits (.float p) (.int n)
  | float (p : Precision) (x : Binary .double) : Fits (.float p) (.float x)
  | text (s : String) : Fits (.primitive .string) (.text s)
  | tuple {ds : List Descriptor} {vs : List Value} (h : List.Forall₂ Fits ds vs) :
    Fits (.tuple ds) (.tuple vs)
  | list {p : Primitive} {vs : List Value} (h : ∀ v ∈ vs, Fits (.primitive p) v) :
    Fits (.vector (.primitive p)) (.list vs)

/-- A double as a float type keeps it. -/
def stored : Precision → Binary .double → Binary .double
  | .single, x => (x.convert : Binary .single).convert
  | .double, x => x

/-- A scalar as it comes back from the type: at a float type an integer is the corresponding float,
and single precision rounds. -/
def settledScalar : Primitive → Value → Value
  | .numeric (.float p), int n => float (stored p (Binary.ofInt n.val))
  | .numeric (.float p), float x => float (stored p x)
  | _, v => v

mutual

/-- A value as it comes back from the type. -/
def settled : Descriptor → Value → Value
  | .primitive p, v => settledScalar p v
  | .tuple ds, tuple vs => tuple (settledAll ds vs)
  | .generic _ [.primitive p], list vs => list (vs.map (settledScalar p))
  | _, v => v

def settledAll : List Descriptor → List Value → List Value
  | d :: ds, v :: vs => settled d v :: settledAll ds vs
  | _, _ => []

end

/-! ## Scalars -/

theorem toNumeric_integer_eq_ok_iff {k : IntegerType} {v : Value} {m : Bounded k} :
    v.toNumeric (.integer k) = .ok m ↔ ∃ n : Bounded .i64, v = int n ∧ n.val = m.val := by
  constructor
  · intro h
    obtain ⟨n, hn, range⟩ := bind_eq_ok_iff.mp h
    cases v <;> cases hn
    split at range
    · next hm =>
      cases range
      exact ⟨n, rfl, Bounded.ofInt?_eq_some_iff.mp hm⟩
    · cases range
  · rintro ⟨n, rfl, hn⟩
    refine bind_eq_ok_iff.mpr ⟨n, rfl, ?_⟩
    rw [hn, Bounded.ofInt?_val]
    rfl

theorem exists_toScalar_iff (p : Primitive) (v : Value) :
    (∃ x, v.toScalar p = .ok x) ↔ Fits (.primitive p) v := by
  constructor
  · rintro ⟨x, hx⟩
    match p with
    | .bool =>
      cases v <;> cases hx
      exact .bool x
    | .string =>
      cases v <;> cases hx
      exact .text x
    | .numeric (.float p) =>
      cases v with
      | int n => exact .whole p n
      | float x => exact .float p x
      | _ => cases hx
    | .numeric (.integer k) =>
      obtain ⟨n, rfl, hn⟩ := toNumeric_integer_eq_ok_iff.mp hx
      exact .integer (hn ▸ ⟨x.least_le, x.le_greatest⟩)
  · intro h
    cases h with
    | bool b => exact ⟨b, rfl⟩
    | text s => exact ⟨s, rfl⟩
    | whole p n => exact ⟨_, rfl⟩
    | float p x => exact ⟨_, rfl⟩
    | integer h => exact ⟨⟨_, h.1, h.2⟩, toNumeric_integer_eq_ok_iff.mpr ⟨_, rfl, rfl⟩⟩

theorem convert_convert_double (p : Precision) (x : Binary .double) :
    ((x.convert : Binary p).convert : Binary .double) = stored p x := by
  cases p with
  | single => rfl
  | double => rw [Binary.convert_self, Binary.convert_self, stored]

/-- A scalar made of a host value is read back as the settled value. -/
theorem ofScalar_toScalar {p : Primitive} {v : Value} {x : p.Carrier} (h : v.toScalar p = .ok x) :
    ofScalar p x = .ok (settledScalar p v) := by
  match p with
  | .bool =>
    cases v <;> cases h
    rfl
  | .string =>
    cases v <;> cases h
    rfl
  | .numeric (.float p) =>
    cases v <;> cases h
    · exact congrArg (Except.ok <| float ·) (convert_convert_double p _)
    · exact congrArg (Except.ok <| float ·) (convert_convert_double p _)
  | .numeric (.integer k) =>
    obtain ⟨n, rfl, hn⟩ := toNumeric_integer_eq_ok_iff.mp h
    have clamped : Bounded.clamp .i64 x.val = n := by rw [← hn, Bounded.clamp_val]
    have least := x.least_le
    cases k with
    | i32 => exact congrArg (Except.ok <| int ·) clamped
    | i64 => exact congrArg (Except.ok <| int ·) (by cases n; cases x; cases hn; rfl)
    | u32 => exact congrArg (Except.ok <| int ·) clamped
    | u64 =>
      have whole : ((Bounded.val x).toNat : Int) = n.val := by
        rw [hn]
        exact Int.toNat_of_nonneg least
      show ofUnsigned (Bounded.val x).toNat = _
      rw [ofUnsigned, Bounded.ofInt?_eq_some_iff.mpr whole]
      rfl

theorem exists_toScalars_iff (p : Primitive) (vs : List Value) :
    (∃ xs, toScalars p vs = .ok xs) ↔ ∀ v ∈ vs, Fits (.primitive p) v := by
  induction vs with
  | nil => simpa using ⟨_, rfl⟩
  | cons v vs ih =>
    rw [List.forall_mem_cons, ← ih, ← exists_toScalar_iff]
    exact exists_cons_eq_ok_iff

theorem ofScalars_toScalars {p : Primitive} {vs : List Value} {xs : List p.Carrier}
    (h : toScalars p vs = .ok xs) : ofScalars p xs = .ok (vs.map (settledScalar p)) := by
  induction vs generalizing xs with
  | nil =>
    cases h
    rfl
  | cons v vs ih =>
    obtain ⟨x, hx, h⟩ := bind_eq_ok_iff.mp h
    obtain ⟨xs, hxs, h⟩ := bind_eq_ok_iff.mp h
    cases h
    rw [ofScalars, ofScalar_toScalar hx, ih hxs]
    rfl

/-! ## Host to native and back -/

section Shapes

variable {v : Value} {o : PrivateRelease.Value}

theorem toNative_primitive_eq_ok_iff {p : Primitive} :
    toNative (.primitive p) v = .ok o ↔ ∃ x, v.toScalar p = .ok x ∧ o = .scalar p x := by
  rw [toNative, bind_eq_ok_iff]
  exact exists_congr fun x => and_congr_right fun _ => ⟨fun h => by cases h; rfl, fun h => h ▸ rfl⟩

theorem toNative_tuple_eq_ok_iff {ds : List Descriptor} :
    toNative (.tuple ds) v = .ok o ↔
      ∃ vs os, v = tuple vs ∧ ds.length = vs.length ∧ toNatives ds vs = .ok os ∧ o = .tuple os := by
  rw [toNative]
  constructor
  · intro h
    obtain ⟨vs, hv, made⟩ := bind_eq_ok_iff.mp h
    cases v <;> cases hv
    split at made
    · cases made
    next hl =>
    obtain ⟨os, hos, made⟩ := bind_eq_ok_iff.mp made
    cases made
    exact ⟨vs, os, rfl, by omega, hos, rfl⟩
  · rintro ⟨vs, os, rfl, hl, hos, rfl⟩
    simp [demand, tuple?, ok_bind, hl, hos]

theorem toNative_generic_eq_ok_iff {name : String} {args : List Descriptor} :
    toNative (.generic name args) v = .ok o ↔
      ∃ p vs xs, Descriptor.generic name args = .vector (.primitive p) ∧ v = list vs ∧
        toScalars p vs = .ok xs ∧ o = .vector p xs := by
  rw [toNative]
  constructor
  · intro h
    split at h
    · cases h
    next element he =>
    obtain ⟨vs, hv, made⟩ := bind_eq_ok_iff.mp h
    cases v <;> cases hv
    cases element with
    | primitive p =>
      obtain ⟨xs, hxs, made⟩ := bind_eq_ok_iff.mp made
      cases made
      exact ⟨p, vs, xs, Descriptor.element?_eq_some_iff.mp he, rfl, hxs, rfl⟩
    | _ => cases made
  · rintro ⟨p, vs, xs, hd, rfl, hxs, rfl⟩
    rw [Descriptor.element?_eq_some_iff.mpr hd]
    exact bind_eq_ok_iff.mpr ⟨vs, rfl, bind_eq_ok_iff.mpr ⟨xs, hxs, rfl⟩⟩

theorem toNatives_cons_eq_ok_iff {d : Descriptor} {ds : List Descriptor} {vs : List Value}
    {os : List PrivateRelease.Value} :
    toNatives (d :: ds) (v :: vs) = .ok os ↔
      ∃ o rest, toNative d v = .ok o ∧ toNatives ds vs = .ok rest ∧ os = o :: rest := by
  rw [toNatives]
  constructor
  · intro h
    obtain ⟨o, ho, h⟩ := bind_eq_ok_iff.mp h
    obtain ⟨rest, hr, h⟩ := bind_eq_ok_iff.mp h
    cases h
    exact ⟨o, rest, ho, hr, rfl⟩
  · rintro ⟨o, rest, ho, hr, rfl⟩
    exact bind_eq_ok_iff.mpr ⟨o, ho, bind_eq_ok_iff.mpr ⟨rest, hr, rfl⟩⟩

end Shapes

mutual

/-- A host value stands for a native one exactly if it fits. -/
theorem exists_toNative_iff (d : Descriptor) (v : Value) :
    (∃ o, toNative d v = .ok o) ↔ Fits d v := by
  match d with
  | .primitive p =>
    simp only [toNative_primitive_eq_ok_iff, ← exists_toScalar_iff]
    exact ⟨fun ⟨_, x, hx, _⟩ => ⟨x, hx⟩, fun ⟨x, hx⟩ => ⟨_, x, hx, rfl⟩⟩
  | .tuple ds =>
    simp only [toNative_tuple_eq_ok_iff]
    constructor
    · rintro ⟨_, vs, os, rfl, hl, hos, _⟩
      exact .tuple ((exists_toNatives_iff ds vs hl).mp ⟨os, hos⟩)
    · intro h
      cases h with
      | tuple h =>
        obtain ⟨os, hos⟩ := (exists_toNatives_iff ds _ h.length_eq).mpr h
        exact ⟨_, _, os, rfl, h.length_eq, hos, rfl⟩
  | .generic name args =>
    simp only [toNative_generic_eq_ok_iff]
    constructor
    · rintro ⟨_, p, vs, xs, hd, rfl, hxs, _⟩
      rw [hd]
      exact .list ((exists_toScalars_iff p vs).mp ⟨xs, hxs⟩)
    · intro h
      cases h with
      | list h =>
        obtain ⟨xs, hxs⟩ := (exists_toScalars_iff _ _).mpr h
        exact ⟨_, _, _, xs, rfl, rfl, hxs, rfl⟩

theorem exists_toNatives_iff (ds : List Descriptor) (vs : List Value) (hl : ds.length = vs.length) :
    (∃ os, toNatives ds vs = .ok os) ↔ List.Forall₂ Fits ds vs := by
  match ds, vs with
  | [], [] => exact ⟨fun _ => .nil, fun _ => ⟨[], rfl⟩⟩
  | d :: ds, v :: vs =>
    rw [List.forall₂_cons, ← exists_toNative_iff d v,
      ← exists_toNatives_iff ds vs (by simpa using hl), toNatives]
    exact exists_cons_eq_ok_iff

end

mutual

/-- What a host value stands for is read back as the settled value. -/
theorem ofNative_toNative {d : Descriptor} {v : Value} {o : PrivateRelease.Value}
    (h : toNative d v = .ok o) : ofNative o = .ok (settled d v) := by
  match d with
  | .primitive p =>
    obtain ⟨x, hx, rfl⟩ := toNative_primitive_eq_ok_iff.mp h
    exact ofScalar_toScalar hx
  | .tuple ds =>
    obtain ⟨vs, os, rfl, hl, hos, rfl⟩ := toNative_tuple_eq_ok_iff.mp h
    rw [ofNative, ofNatives_toNatives hl hos, settled]
    rfl
  | .generic name args =>
    obtain ⟨p, vs, xs, hd, rfl, hxs, rfl⟩ := toNative_generic_eq_ok_iff.mp h
    cases hd
    rw [ofNative, ofScalars_toScalars hxs, settled]
    rfl

theorem ofNatives_toNatives {ds : List Descriptor} {vs : List Value}
    {os : List PrivateRelease.Value} (hl : ds.length = vs.length) (h : toNatives ds vs = .ok os) :
    ofNatives os = .ok (settledAll ds vs) := by
  match ds, vs with
  | [], [] =>
    cases h
    rfl
  | d :: ds, v :: vs =>
    obtain ⟨o, rest, ho, hr, rfl⟩ := toNatives_cons_eq_ok_iff.mp h
    rw [ofNatives, ofNative_toNative ho, ofNatives_toNatives (by simpa using hl) hr, settledAll]
    rfl

end

/-! ## Native to host and back -/

theorem ofUnsigned_eq_ok_iff {n : Nat} {w : Value} :
    ofUnsigned n = .ok w ↔ ∃ m : Bounded .i64, m.val = n ∧ w = int m := by
  unfold ofUnsigned
  constructor
  · intro h
    split at h
    · next m hm =>
      cases h
      exact ⟨m, (Bounded.ofInt?_eq_some_iff.mp hm).symm, rfl⟩
    · cases h
  · rintro ⟨m, hm, rfl⟩
    rw [Bounded.ofInt?_eq_some_iff.mpr hm.symm]

theorem exists_ofScalar_iff (p : Primitive) (x : p.Carrier) :
    (∃ w, ofScalar p x = .ok w) ↔ ¬ (PrivateRelease.Value.scalar p x).Exceeds := by
  match p with
  | .numeric (.integer .u64) =>
    have nonneg : 0 ≤ Bounded.val x := x.least_le
    have whole : ((Bounded.val x).toNat : Int) = x.val := Int.toNat_of_nonneg nonneg
    constructor
    · rintro ⟨w, hw⟩ ⟨h⟩
      obtain ⟨m, hm, rfl⟩ := ofUnsigned_eq_ok_iff.mp hw
      have := m.le_greatest
      omega
    · intro h
      have le : Bounded.val x ≤ IntegerType.greatest .i64 :=
        Int.not_lt.mp fun h' => h (.scalar h')
      refine ⟨int ⟨x.val, ?_, le⟩, ofUnsigned_eq_ok_iff.mpr ⟨_, whole.symm, rfl⟩⟩
      exact Int.le_trans (by decide) nonneg
  | .bool | .string | .numeric (.float _) | .numeric (.integer .i32) | .numeric (.integer .i64)
  | .numeric (.integer .u32) => exact ⟨fun _ => nofun, fun _ => ⟨_, rfl⟩⟩

theorem exists_ofScalars_iff (p : Primitive) (xs : List p.Carrier) :
    (∃ ws, ofScalars p xs = .ok ws) ↔ ∀ x ∈ xs, ¬ (PrivateRelease.Value.scalar p x).Exceeds := by
  induction xs with
  | nil => simpa using ⟨_, rfl⟩
  | cons x xs ih =>
    rw [List.forall_mem_cons, ← ih, ← exists_ofScalar_iff]
    exact exists_cons_eq_ok_iff

mutual

/-- A native value without curves is read exactly if no integer in it is too large. -/
theorem exists_ofNative_iff {o : PrivateRelease.Value} (ho : o.IsPlain) :
    (∃ w, ofNative o = .ok w) ↔ ¬ o.Exceeds := by
  match o with
  | .scalar p x => exact exists_ofScalar_iff p x
  | .vector p xs =>
    simp only [PrivateRelease.Value.exceeds_vector_iff, not_exists, not_and]
    rw [← exists_ofScalars_iff, ofNative]
    exact exists_map_eq_ok_iff
  | .tuple os =>
    have plain : ∀ o ∈ os, o.IsPlain := by
      cases ho with
      | tuple h => exact h
    simp only [PrivateRelease.Value.exceeds_tuple_iff, not_exists, not_and]
    rw [← exists_ofNatives_iff plain, ofNative]
    exact exists_map_eq_ok_iff
  | .curve c => cases ho

theorem exists_ofNatives_iff {os : List PrivateRelease.Value} (ho : ∀ o ∈ os, o.IsPlain) :
    (∃ ws, ofNatives os = .ok ws) ↔ ∀ o ∈ os, ¬ o.Exceeds := by
  match os with
  | [] => simpa using ⟨_, rfl⟩
  | o :: os =>
    rw [List.forall_mem_cons] at ho ⊢
    rw [← exists_ofNative_iff ho.1, ← exists_ofNatives_iff ho.2, ofNatives]
    exact exists_cons_eq_ok_iff

end

theorem clamp_val_of_mem {n : Int} (h : IntegerType.least .i64 ≤ n)
    (h' : n ≤ IntegerType.greatest .i64) : (Bounded.clamp .i64 n).val = n :=
  congrArg Bounded.val (Bounded.clamp_val ⟨n, h, h'⟩)

/-- A scalar that was read is made into the same scalar again. -/
theorem toScalar_ofScalar {p : Primitive} {x : p.Carrier} {w : Value} (h : ofScalar p x = .ok w) :
    ∃ y, w.toScalar p = .ok y ∧ Primitive.Alike x y := by
  match p with
  | .bool | .string =>
    cases h
    exact ⟨x, rfl, rfl⟩
  | .numeric (.float p) =>
    cases h
    refine ⟨_, rfl, ?_⟩
    cases p with
    | single => exact Binary.alike_narrow_wide x
    | double =>
      show Binary.Alike x ((x.convert : Binary .double).convert : Binary .double)
      rw [Binary.convert_self, Binary.convert_self]
      exact .refl x
  | .numeric (.integer .i64) =>
    cases h
    exact ⟨x, toNumeric_integer_eq_ok_iff.mpr ⟨x, rfl, rfl⟩, rfl⟩
  | .numeric (.integer .i32) | .numeric (.integer .u32) =>
    cases h
    have least := x.least_le
    have greatest := x.le_greatest
    refine ⟨x, toNumeric_integer_eq_ok_iff.mpr ⟨_, rfl, clamp_val_of_mem ?_ ?_⟩, rfl⟩
    · exact Int.le_trans (by decide) least
    · exact Int.le_trans greatest (by decide)
  | .numeric (.integer .u64) =>
    obtain ⟨m, hm, rfl⟩ := ofUnsigned_eq_ok_iff.mp h
    have whole : m.val = Bounded.val x := hm.trans (Int.toNat_of_nonneg x.least_le)
    exact ⟨x, toNumeric_integer_eq_ok_iff.mpr ⟨m, rfl, whole⟩, rfl⟩

theorem toScalars_ofScalars {p : Primitive} {xs : List p.Carrier} {ws : List Value}
    (h : ofScalars p xs = .ok ws) :
    ∃ ys, toScalars p ws = .ok ys ∧ List.Forall₂ Primitive.Alike xs ys := by
  induction xs generalizing ws with
  | nil =>
    cases h
    exact ⟨[], rfl, .nil⟩
  | cons x xs ih =>
    obtain ⟨w, hw, h⟩ := bind_eq_ok_iff.mp h
    obtain ⟨ws, hws, h⟩ := bind_eq_ok_iff.mp h
    cases h
    obtain ⟨y, hy, alike⟩ := toScalar_ofScalar hw
    obtain ⟨ys, hys, alikes⟩ := ih hws
    exact ⟨y :: ys, bind_eq_ok_iff.mpr ⟨y, hy, bind_eq_ok_iff.mpr ⟨ys, hys, rfl⟩⟩,
      .cons alike alikes⟩

mutual

/-- What a native value was read as stands for the same value again. -/
theorem toNative_ofNative {o : PrivateRelease.Value} {w : Value} (h : ofNative o = .ok w) :
    ∃ o', toNative o.type w = .ok o' ∧ o.Alike o' := by
  match o with
  | .scalar p x =>
    obtain ⟨y, hy, alike⟩ := toScalar_ofScalar h
    exact ⟨_, toNative_primitive_eq_ok_iff.mpr ⟨y, hy, rfl⟩, .scalar alike⟩
  | .vector p xs =>
    rw [ofNative] at h
    obtain ⟨ws, hws, h⟩ := bind_eq_ok_iff.mp h
    cases h
    obtain ⟨ys, hys, alikes⟩ := toScalars_ofScalars hws
    exact ⟨_, toNative_generic_eq_ok_iff.mpr ⟨p, ws, ys, rfl, rfl, hys, rfl⟩, .vector alikes⟩
  | .tuple os =>
    rw [ofNative] at h
    obtain ⟨ws, hws, h⟩ := bind_eq_ok_iff.mp h
    cases h
    obtain ⟨hl, os', hos', alikes⟩ := toNatives_ofNatives hws
    exact ⟨_, toNative_tuple_eq_ok_iff.mpr ⟨ws, os', rfl, hl, hos', rfl⟩, .tuple alikes⟩
  | .curve c => cases h

theorem toNatives_ofNatives {os : List PrivateRelease.Value} {ws : List Value}
    (h : ofNatives os = .ok ws) :
    (PrivateRelease.Value.types os).length = ws.length ∧
      ∃ os', toNatives (PrivateRelease.Value.types os) ws = .ok os' ∧
        List.Forall₂ PrivateRelease.Value.Alike os os' := by
  match os with
  | [] =>
    cases h
    exact ⟨rfl, [], rfl, .nil⟩
  | o :: os =>
    rw [ofNatives] at h
    obtain ⟨w, hw, h⟩ := bind_eq_ok_iff.mp h
    obtain ⟨ws, hws, h⟩ := bind_eq_ok_iff.mp h
    cases h
    obtain ⟨o', ho', alike⟩ := toNative_ofNative hw
    obtain ⟨hl, os', hos', alikes⟩ := toNatives_ofNatives hws
    refine ⟨congrArg (· + 1) hl, o' :: os', ?_, .cons alike alikes⟩
    exact toNatives_cons_eq_ok_iff.mpr ⟨o', os', ho', hos', rfl⟩

end

end Value

/-! ## Objects -/

section Pushing

variable {b : Bindings} {p : Parameter} {d : Descriptor}

theorem evaluates_push_object [Elementary] (hp : p.passing = .object)
    (hs : template p.shape b = .ok d) (hd : d.WellFormed) (f : Frame) (v : Value) (t : Tape) :
    Evaluates (f.push b p (.value v)) t
      (v.toNative d >>= fun o => .ok (f.withTemporary (.ofObject o))) t := by
  unfold Frame.push
  rw [hp]
  refine (evaluates_ok hs t).bind_ok ?_
  have added := (evaluates_makeObject hd v t).bind (f := fun h => pure (f.withTemporary h))
    (g := fun h => pure (f.withTemporary h)) fun h _ => .pure _ t
  rwa [bind_map_left] at added

/-- A host value can be passed as an object of a type exactly if it fits the type. The object is then
of that type and is read back as the settled value. -/
theorem Frame.push_object_iff_fits [Elementary] (hp : p.passing = .object)
    (hs : template p.shape b = .ok d) (hd : d.WellFormed) (f : Frame) (v : Value) (l : Ledger) :
    ((∃ f', (f.push b p (.value v) l).1 = .ok f') ↔ v.Fits d) ∧
    ∀ f', (f.push b p (.value v) l).1 = .ok f' →
      ∃ o, f' = f.withTemporary (.ofObject o) ∧ o.type = d ∧
        ∀ l', ((Handle.ofObject o).read l').1 = .ok (v.settled d) := by
  have pushed := (evaluates_push_object hp hs hd f v l.tape l rfl).1
  constructor
  · rw [pushed, ← Value.exists_toNative_iff]
    exact exists_map_eq_ok_iff
  · intro f' hf
    rw [pushed] at hf
    obtain ⟨o, ho, made⟩ := bind_eq_ok_iff.mp hf
    cases made
    obtain ⟨rfl, _⟩ := Value.toNative_eq_ok ho
    refine ⟨o, rfl, rfl, fun l' => ?_⟩
    rw [(evaluates_read hd l'.tape l' rfl).1]
    exact Value.ofNative_toNative ho

/-- An integer passed for a single, beside an empty vector. -/
theorem Frame.push_object_tuple :
    letI := Elementary.machine
    ∃ o, (Frame.empty.push [] ⟨"arg", "(f32,Vec<u32>)", .object⟩
        (.value (.tuple [.int ⟨3, by decide, by decide⟩, .list []])) (.start (.seeded 0))).1 =
          .ok (Frame.empty.withTemporary (.ofObject o)) ∧
      o.type = .tuple [.float .single, .vector (.integer .u32)] ∧
      ∀ l, ((Handle.ofObject o).read l).1 =
        .ok (.tuple [.float (Value.stored .single (Binary.ofInt 3)), .list []]) := by
  have shape : (Descriptor.tuple [.float .single, .vector (.integer .u32)]).WellFormed := by
    refine .tuple ?_
    simpa using ⟨.primitive _, Descriptor.wellFormed_vector (.primitive _)⟩
  have named : template "(f32,Vec<u32>)" [] =
      .ok (.tuple [.float .single, .vector (.integer .u32)]) := template_toText _ shape []
  let _ := Elementary.machine
  obtain ⟨fits, made⟩ := Frame.push_object_iff_fits (p := ⟨"arg", "(f32,Vec<u32>)", .object⟩)
    rfl named shape .empty (.tuple [.int ⟨3, by decide, by decide⟩, .list []]) (.start (.seeded 0))
  obtain ⟨f', hf⟩ := fits.mpr (.tuple (.cons (.whole _ _) (.cons (.list (by simp)) .nil)))
  obtain ⟨o, rfl, type, read⟩ := made f' hf
  refine ⟨o, hf, type, fun l => ?_⟩
  rw [read]
  simp only [Value.settled, Value.settledAll, Value.settledScalar, Descriptor.float,
    Descriptor.numeric, Descriptor.vector, Descriptor.integer, List.map_nil]

/-- Reading an object without curves fails exactly if an integer in it is too large for the host. What
was read can be passed as an object of the same type, which is then the object that was read. -/
theorem Handle.read_fails_iff_exceeds [Elementary] {o : PrivateRelease.Value} (ho : o.IsPlain)
    (hp : p.passing = .object) (hs : template p.shape b = .ok o.type) (f : Frame) (l : Ledger) :
    ((∃ e, ((Handle.ofObject o).read l).1 = .error e) ↔ o.Exceeds) ∧
    ∀ w, ((Handle.ofObject o).read l).1 = .ok w →
      ∃ o', o.Alike o' ∧
        ∀ l', (f.push b p (.value w) l').1 = .ok (f.withTemporary (.ofObject o')) := by
  have read := (evaluates_read ho.wellFormed l.tape l rfl).1
  constructor
  · rw [read]
    have readable := Value.exists_ofNative_iff ho
    cases hw : Value.ofNative o with
    | ok w => exact ⟨fun ⟨_, h⟩ => (nomatch h), fun h => absurd h (readable.mp ⟨w, hw⟩)⟩
    | error e =>
      refine ⟨fun _ => ?_, fun _ => ⟨e, rfl⟩⟩
      by_contra fits
      obtain ⟨w, read⟩ := readable.mpr fits
      rw [hw] at read
      cases read
  · intro w hw
    rw [read] at hw
    obtain ⟨o', ho', alike⟩ := Value.toNative_ofNative hw
    refine ⟨o', alike, fun l' => ?_⟩
    rw [(evaluates_push_object hp hs ho.wellFormed f w l'.tape l' rfl).1, ho']
    rfl

/-- The largest integer that a host can read, beside a text. -/
theorem Handle.read_tuple :
    letI := Elementary.machine
    ∃ w o', ((Handle.ofObject (.tuple [.integer .u64 ⟨2 ^ 63 - 1, by decide, by decide⟩,
        .scalar .string "λ"])).read (.start (.seeded 0))).1 = .ok w ∧
      PrivateRelease.Value.Alike (.tuple [.integer .u64 ⟨2 ^ 63 - 1, by decide, by decide⟩,
        .scalar .string "λ"]) o' ∧
      ∀ l, (Frame.empty.push [] ⟨"arg", "(u64,String)", .object⟩ (.value w) l).1 =
        .ok (Frame.empty.withTemporary (.ofObject o')) := by
  have plain : (PrivateRelease.Value.tuple [.integer .u64 ⟨2 ^ 63 - 1, by decide, by decide⟩,
      .scalar .string "λ"]).IsPlain := .tuple (by simpa using ⟨.scalar _ _, .scalar _ _⟩)
  have named : template "(u64,String)" [] =
      .ok (.tuple [.integer .u64, .primitive .string]) := template_toText _ plain.wellFormed []
  let _ := Elementary.machine
  obtain ⟨fails, again⟩ := Handle.read_fails_iff_exceeds (p := ⟨"arg", "(u64,String)", .object⟩)
    plain rfl named .empty (.start (.seeded 0))
  cases read : ((Handle.ofObject (.tuple [.integer .u64 ⟨2 ^ 63 - 1, by decide, by decide⟩,
      .scalar .string "λ"])).read (.start (.seeded 0))).1 with
  | ok w =>
    obtain ⟨o', alike, made⟩ := again w read
    exact ⟨w, o', rfl, alike, made⟩
  | error e =>
    obtain ⟨v, hv, h⟩ := PrivateRelease.Value.exceeds_tuple_iff.mp (fails.mp ⟨e, read⟩)
    simp only [List.mem_cons, List.not_mem_nil, or_false] at hv
    rcases hv with rfl | rfl
    · cases h with
      | scalar h => exact absurd h (by decide)
    · cases h

end Pushing

end Host

end PrivateRelease
