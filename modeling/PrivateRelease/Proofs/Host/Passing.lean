import PrivateRelease.Proofs.Host.Verdicts

/-!
# Three ways to pass a scalar

A scalar is passed in the payload word, in a slot or as an object. All three ways take the same host
values and refuse the others with the same error, and slot and object hold the same scalar. The word
stands for that scalar too, but for a single it shows the double that the single is rounded from.
-/

namespace PrivateRelease.Host.Value

open Boundary (Ledger Payload Reference)

variable {p : Primitive} {v : Value}

/-- The type keeps the scalar as it is given: rounding to single precision changes nothing. -/
def IsKept (v : Value) : Primitive → Prop
  | .numeric (.float .single) => ∀ x, v.float? = some x → stored .single x = x
  | _ => True

theorem toSlot_eq (hp : p ≠ .string) (v : Value) :
    v.toSlot (.primitive p) = Reference.slot p <$> v.toScalar p := by
  cases p with
  | string => exact absurd rfl hp
  | bool => simp only [toSlot, bind_pure_comp]
  | numeric q => simp only [toSlot, toScalar, bind_pure_comp]

theorem toWord_eq_error {e : Failure} (hp : p ≠ .string) (h : v.toScalar p = .error e) :
    v.toWord (.primitive p) = .error e := by
  match p with
  | .string => exact absurd rfl hp
  | .bool => rw [toWord, h, error_bind]
  | .numeric (.integer k) =>
    rw [toScalar] at h
    rw [toWord, h, error_bind]
  | .numeric (.float p) =>
    rw [toScalar, toNumeric] at h
    rw [toWord]
    cases given : v.demand (.float p) v.float? with
    | error e' =>
      rw [given] at h
      cases h
      rfl
    | ok y =>
      rw [given] at h
      cases h

/-- The word of an integer shows it, sign and all. -/
theorem ofWord_integer {k : IntegerType} {n : Bounded .i64} {m : Bounded k} (h : n.val = m.val) :
    ofWord (.integer m.val) (.integer k) = .ok (int n) := by
  have unsigned (least : 0 ≤ n.val) :
      ofUnsigned (Payload.integer n.val).toUnsigned = .ok (int n) := by
    have greatest := n.le_greatest
    simp only [IntegerType.greatest] at greatest
    have whole : ((n.val.toNat : Nat) : Int) = n.val := Int.toNat_of_nonneg least
    rw [← whole, Payload.toUnsigned_integer (by omega)]
    exact ofUnsigned_eq_ok_iff.mpr ⟨n, whole.symm, rfl⟩
  have least := m.least_le
  rw [← h]
  -- The signed types are seen through the signed view of the word, the others through the unsigned one.
  cases k with
  | i32 | i64 => exact congrArg (Except.ok <| int ·) (Payload.toSigned_integer n)
  | u32 | u64 => exact unsigned (h ▸ least)

/-- The word of a scalar shows a host value for which the type has that scalar. It is the value that
the scalar itself is read as, unless rounding to the type has changed it. -/
theorem exists_toWord (hp : p ≠ .string) {x : p.Carrier} (h : v.toScalar p = .ok x) :
    ∃ w u, v.toWord (.primitive p) = .ok w ∧ ofWord w (.primitive p) = .ok u ∧
      u.toScalar p = .ok x ∧ (ofScalar p x = .ok u ↔ v.IsKept p) := by
  match p with
  | .string => exact absurd rfl hp
  | .bool =>
    cases v <;> cases h
    refine ⟨.bool x, bool x, rfl, ?_, rfl, iff_of_true rfl trivial⟩
    cases x <;> rfl
  | .numeric (.integer k) =>
    obtain ⟨n, rfl, hn⟩ := toNumeric_integer_eq_ok_iff.mp h
    rw [toScalar] at h
    refine ⟨.integer (Bounded.val x), int n, ?_, ofWord_integer hn, h,
      iff_of_true (ofScalar_toScalar h) trivial⟩
    rw [toWord, h, ok_bind]
    rfl
  | .numeric (.float q) =>
    obtain ⟨y, hy, rfl⟩ := toScalar_float_eq_ok_iff.mp h
    have shown : ofWord (.double y) (.float q) = .ok (float y) :=
      congrArg (Except.ok <| float ·) (Payload.toDouble_double y)
    refine ⟨.double y, float y, ?_, shown, toScalar_float_eq_ok_iff.mpr ⟨y, rfl, rfl⟩, ?_⟩
    · rw [toWord, hy]
      rfl
    · rw [ofScalar, convert_convert_double]
      cases q with
      | single => simp [IsKept, hy]
      | double => exact iff_of_true rfl trivial

theorem toNative_primitive (p : Primitive) (v : Value) :
    v.toNative (.primitive p) = PrivateRelease.Value.scalar p <$> v.toScalar p := by
  rw [toNative, bind_pure_comp]

/-- However a scalar is passed, the same host values are taken and the others are refused with one
error. Slot and object hold one scalar, and the word shows a host value for which the type has that
scalar. What the word shows is what the scalar is read as exactly if the type keeps what is given. -/
theorem passing_agrees [Elementary] (hp : p ≠ .string) (v : Value) (l : Ledger) :
    (∃ e, v.toWord (.primitive p) = .error e ∧ v.toSlot (.primitive p) = .error e ∧
      (Frame.makeObject v (.primitive p) l).1 = .error e) ∨
    ∃ w r x u, v.toWord (.primitive p) = .ok w ∧ v.toSlot (.primitive p) = .ok r ∧
      (Frame.makeObject v (.primitive p) l).1 = .ok (.ofObject (.scalar p x)) ∧
      (∀ what, (Payload.reference r).toSlot p what = .ok x) ∧
      ofWord w (.primitive p) = .ok u ∧ u.toScalar p = .ok x ∧
      (ofScalar p x = .ok u ↔ v.IsKept p) := by
  have object := (evaluates_makeObject (.primitive p) v l.tape l rfl).1
  have slot := toSlot_eq hp v
  rw [toNative_primitive] at object
  cases h : v.toScalar p with
  | error e =>
    rw [h] at object slot
    exact .inl ⟨e, toWord_eq_error hp h, slot, object⟩
  | ok x =>
    rw [h] at object slot
    obtain ⟨w, u, word, shown, same, kept⟩ := exists_toWord hp h
    exact .inr ⟨w, .slot p x, x, u, word, slot, object, Payload.toSlot_slot hp x, shown, same, kept⟩

/-- A negative integer for a single, which keeps it. -/
theorem passing_agrees_negative :
    letI := Elementary.machine
    letI v : Value := .int ⟨-5, by decide, by decide⟩
    ∃ w x, v.toWord (.float .single) = .ok w ∧
      (Frame.makeObject v (.float .single) (.start (.seeded 0))).1 =
        .ok (.ofObject (.float .single x)) ∧
      ofScalar (.numeric (.float .single)) x = ofWord w (.float .single) := by
  let _ := Elementary.machine
  let v : Value := .int ⟨-5, by decide, by decide⟩
  have kept : v.IsKept (.numeric (.float .single)) := by
    rintro _ ⟨⟩
    decide +kernel
  obtain ⟨e, -, slot, -⟩ | ⟨w, r, x, u, word, -, object, -, shown, -, read⟩ :=
    passing_agrees (p := .numeric (.float .single)) nofun v (.start (.seeded 0))
  · cases slot
  · exact ⟨w, x, word, object, (read.mpr kept).trans shown.symm⟩

/-- The least positive integer that no single has: slot and object hold the one before it, the word
still shows the integer. -/
theorem rounded_single_shown_exactly :
    letI := Elementary.machine
    letI v : Value := .int ⟨16777217, by decide, by decide⟩
    letI x : Binary .single := .ofInt 16777216
    ∃ w, v.toWord (.float .single) = .ok w ∧
      v.toSlot (.float .single) = .ok (.slot (.numeric (.float .single)) x) ∧
      (Frame.makeObject v (.float .single) (.start (.seeded 0))).1 =
        .ok (.ofObject (.float .single x)) ∧
      ofWord w (.float .single) = .ok (float (.ofInt 16777217)) ∧
      ofScalar (.numeric (.float .single)) x = .ok (float (.ofInt 16777216)) ∧
      (Binary.ofInt 16777216 : Binary .double).lt (.ofInt 16777217) := by
  let _ := Elementary.machine
  let v : Value := .int ⟨16777217, by decide, by decide⟩
  let x : Binary .single := .ofInt 16777216
  have rounded : ((Binary.ofInt 16777217 : Binary .double).convert : Binary .single) = x := by
    decide +kernel
  have widened : (x.convert : Binary .double) = .ofInt 16777216 := by decide +kernel
  have scalar : v.toScalar (.numeric (.float .single)) = .ok x :=
    toScalar_float_eq_ok_iff.mpr ⟨_, rfl, rounded.symm⟩
  have slot := toSlot_eq (p := .numeric (.float .single)) nofun v
  have object := (evaluates_makeObject (.primitive (.numeric (.float .single))) v _
    (.start (.seeded 0)) rfl).1
  rw [toNative_primitive, scalar] at object
  rw [scalar] at slot
  refine ⟨_, rfl, slot, object, ?_, ?_, by decide +kernel⟩
  · exact congrArg (Except.ok <| float ·) (Payload.toDouble_double _)
  · exact congrArg (Except.ok <| float ·) widened

end PrivateRelease.Host.Value
