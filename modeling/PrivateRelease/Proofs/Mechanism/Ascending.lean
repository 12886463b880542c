import PrivateRelease.Proofs.Mechanism.Stability
import PrivateRelease.Proofs.Number.Comparisons

/-!
# Distances in order

Stability maps are monotone. A map that counts records keeps their order, and the formulas of sums
and means rise with the number of records. Where a formula is a NaN, at no records between infinite
bounds, the distance it gives is refused by what comes next, so of two distances that are accepted
the order is kept.
-/

namespace PrivateRelease

/-! ## Distances in order -/

/-- Two numbers of a type in order, as distances. -/
inductive Distance.Ascends (q : Numeric) : Value → Value → Prop where
  | mk {x y : q.Carrier} : Numeric.le x y → Ascends q (.numeric q x) (.numeric q y)

namespace Distance

variable {q : Numeric} {d d' : Value}

theorem le_numeric (x y : q.Carrier) :
    le (.numeric q x) (.numeric q y) = .ok (Numeric.le x y) := by
  have order : (Value.numeric q x).order (.numeric q y) = Numeric.order x y := by
    simp [Value.numeric, Value.order, Primitive.order]
  have scalars : le (.numeric q x) (.numeric q y) = leScalar (.numeric q x) (.numeric q y) := by
    simp [le, Value.numeric]
  rw [scalars, leScalar, order, Numeric.le]
  cases Numeric.order x y with
  | some o => rfl
  | none => exact if_pos rfl

theorem le_float {p : Precision} (x y : Binary p) : le (.float p x) (.float p y) = .ok (x.le y) := by
  refine (le_numeric (q := .float p) x y).trans (congrArg Except.ok ?_)
  rw [Bool.eq_iff_iff, Binary.le_iff]
  exact Numeric.le_iff

theorem ascends_of_le (h : le d d' = .ok true) (hd : d.type = .numeric q)
    (hd' : d'.type = .numeric q) : Ascends q d d' := by
  obtain ⟨x, rfl⟩ := Value.type_eq_numeric_iff.mp hd
  obtain ⟨y, rfl⟩ := Value.type_eq_numeric_iff.mp hd'
  rw [le_numeric] at h
  exact .mk (Except.ok.inj h)

theorem onSide_of_isUsable {x : Binary .double} (h : isUsable x) : x.OnSide false := by
  have zero : (0 : Binary .double).position = some 0 := Binary.position_zero false
  cases x with
  | nan => cases h
  | number s r _ =>
    rw [isUsable, Binary.lt, zero] at h
    cases s with
    | false => exact .inl rfl
    | true => exact .inr (by simpa [Binary.position] using (Bool.and_eq_true_iff.mp h).2)

theorem le_toDouble {x y : q.Carrier} (h : Numeric.le x y) :
    (Numeric.toDouble x).le (Numeric.toDouble y) := by
  obtain ⟨i, j, hi, hj, hij⟩ := Numeric.le_iff.mp h
  cases q with
  | integer k =>
    cases hi
    cases hj
    exact Binary.le_ofInt hij
  | float p => exact Binary.le_convert (Binary.le_iff.mpr ⟨i, j, hi, hj, hij⟩)

/-- Valid distances in order are doubles in order, not below zero. -/
theorem Ascends.toDouble (h : Ascends q d d') {u : Unit} (hd : validate d = .ok u) :
    ∃ x y, d.toDouble = .ok x ∧ d'.toDouble = .ok y ∧ x.Rises y := by
  cases h with
  | @mk x y h =>
    unfold Value.numeric validate at hd
    split at hd
    · next usable => exact ⟨_, _, rfl, rfl, onSide_of_isUsable usable, le_toDouble h⟩
    · cases hd

/-- Counts of records in order. -/
theorem Ascends.count (h : Ascends (.integer .u32) d d') :
    ∃ m n : Bounded .u32, d = .integer .u32 m ∧ d' = .integer .u32 n ∧ m.val ≤ n.val := by
  cases h with
  | @mk x y h =>
    obtain ⟨i, j, hi, hj, hij⟩ := Numeric.le_iff.mp h
    cases hi
    cases hj
    exact ⟨x, y, rfl, rfl, hij⟩

/-- A valid distance of a precision is a number. -/
theorem isNaN_of_validate {p : Precision} {x : Binary p} {u : Unit}
    (h : validate (.float p x) = .ok u) : x.isNaN = false := by
  unfold Value.float Value.numeric validate at h
  split at h
  next usable => exact (Binary.isNaN_convert x).symm.trans (onSide_of_isUsable usable).isNaN_eq
  · cases h

theorem Ascends.refl {x : q.Carrier} {u : Unit} (h : validate (.numeric q x) = .ok u) :
    Ascends q (.numeric q x) (.numeric q x) := by
  have number : Numeric.isNaN x = false := by
    cases q with
    | integer k => rfl
    | float p => exact isNaN_of_validate h
  exact .mk (Numeric.le_refl number)

/-- Valid distances that are rounded up are in order, for none of them is a NaN. -/
theorem ascends_upward {p : Precision} {x y : Binary .double} (h : x.Under y) {u v : Unit}
    (hx : validate (.upward p x) = .ok u) (hy : validate (.upward p y) = .ok v) :
    Ascends (.float p) (.upward p x) (.upward p y) := by
  have rises := (h.roundUp p).rises (isNaN_of_validate hx) (isNaN_of_validate hy)
  exact .mk (Numeric.le_iff.mpr (Binary.le_iff.mp rises.le))

end Distance

open Distance (Ascends)

theorem Metric.pos_of_oneRecord? {m : Metric} {n : Nat} (h : m.oneRecord? = some n) : 0 < n := by
  cases m <;> cases h <;> decide

/-! ## Transformations -/

namespace Transformation

/-- Distances in order that the map takes to valid distances are taken to distances in order. -/
def Ascending (t : Transformation) : Prop :=
  ∀ d d' l l', Ascends t.inputMetric.distance d d' → t.boundAt d = .ok l → t.boundAt d' = .ok l' →
    Distance.validate l = .ok () → Distance.validate l' = .ok () →
    Ascends t.outputMetric.distance l l'

theorem ascending_of_keepsRecords {t : Transformation}
    (input : t.inputMetric.distance = .integer .u32)
    (output : t.outputMetric.distance = .integer .u32)
    (h : t.stability = keepsRecords) : t.Ascending := by
  intro d d' l l' order hl hl' _ _
  rw [input] at order
  have kept := boundAt_eq_ok hl
  have kept' := boundAt_eq_ok hl'
  rw [h] at kept kept'
  cases order with
  | mk le =>
    cases kept
    cases kept'
    rw [output]
    exact .mk le

theorem records_rises {d d' : Value} (h : Ascends (.integer .u32) d d') :
    ∃ x y, records d = .ok x ∧ records d' = .ok y ∧ x.Rises y := by
  obtain ⟨m, n, rfl, rfl, order⟩ := h.count
  exact ⟨_, _, rfl, rfl, Binary.rises_ofInt m.least_le order⟩

/-- The formulas of sums and means: the number of records in an expression that rises with it. -/
theorem ascending_of_records {t : Transformation} {p : Precision}
    {f : Binary .double → Binary .double}
    (input : t.inputMetric.distance = .integer .u32) (output : t.outputMetric.distance = .float p)
    (h : ∀ d, t.stability d = do return .upward p (f (← records d)))
    (rises : ∀ x y, x.Rises y → (f x).Under (f y)) : t.Ascending := by
  intro d d' l l' order hl hl' valid valid'
  rw [input] at order
  obtain ⟨x, y, hx, hy, le⟩ := records_rises order
  have bound := boundAt_eq_ok hl
  have bound' := boundAt_eq_ok hl'
  rw [h, hx] at bound
  rw [h, hy] at bound'
  cases bound
  cases bound'
  rw [output]
  exact Distance.ascends_upward (rises x y le) valid valid'

theorem exists_standsAt_magnitude {p : Precision} (lower upper : Binary p) :
    ∃ r, (magnitude lower upper).StandsAt r := by
  obtain ⟨r, hr⟩ := Binary.exists_standsAt_abs (lower.convert : Binary .double)
  obtain ⟨k, hk⟩ := Binary.exists_standsAt_abs (upper.convert : Binary .double)
  exact Binary.exists_standsAt_max hr hk

theorem ascending_boundedSum {p : Precision} {lower upper : Binary p} {t : Transformation}
    (h : boundedSum p lower upper = .ok t) : t.Ascending := by
  obtain ⟨_, _, rfl⟩ := boundedSum_eq_ok h
  obtain ⟨r, hr⟩ := exists_standsAt_magnitude lower upper
  exact ascending_of_records rfl rfl (fun d => rfl) fun x y le => le.under.mul hr.under

theorem ascending_boundedMean {p : Precision} {lower upper : Binary p} {n : Nat}
    {inputMetric outputMetric : Metric} {t : Transformation}
    (h : boundedMean p lower upper n inputMetric outputMetric = .ok t) : t.Ascending := by
  obtain ⟨hn, hs, oneRecord, _, ho, hb, rfl⟩ := boundedMean_eq_ok h
  obtain ⟨ordered, _⟩ := between_eq_ok (q := .float p) hb
  have range := Binary.le_convert (q := .double) (Binary.le_of_numeric ordered)
  obtain ⟨r, hr⟩ := Binary.exists_standsAt_sub range
  have size := (Binary.one_rises_ofNat (Metric.pos_of_oneRecord? ho)).one_mul
    (Binary.one_rises_ofNat (Nat.pos_of_ne_zero hn))
  obtain ⟨k, bound, pos, hk⟩ := Binary.exists_of_onSide size.right size.isZero_of_one
  refine ascending_of_records (Metric.distance_of_oneRecord? ho) (distance_of_isSensitivity hs)
    (fun d => rfl) fun x y le => ?_
  rw [hk]
  exact (le.under.mul hr.under).div pos bound

theorem Ascending.chain {second first t : Transformation} (hs : second.Ascending)
    (hf : first.Ascending) (h : Transformation.chain second first = .ok t) : t.Ascending := by
  obtain ⟨_, metric, rfl⟩ := chain_eq_ok h
  intro d d' l l' order hl hl' valid valid'
  obtain ⟨mid, hmid, hl⟩ := bind_eq_ok_iff.mp (boundAt_eq_ok hl)
  obtain ⟨mid', hmid', hl'⟩ := bind_eq_ok_iff.mp (boundAt_eq_ok hl')
  -- The second map refuses distances that are not valid, so the first one's are.
  obtain ⟨_, usable, _⟩ := bind_eq_ok_iff.mp hl
  obtain ⟨_, usable', _⟩ := bind_eq_ok_iff.mp hl'
  have middle := hf d d' mid mid' order hmid hmid' usable usable'
  rw [metric] at middle
  exact hs mid mid' l l' middle hl hl' valid valid'

theorem Built.ascending {t : Transformation} (h : t.Built) : t.Ascending := by
  induction h with
  | identity p => exact ascending_of_keepsRecords rfl rfl rfl
  | clamp h =>
    obtain ⟨_, _, rfl⟩ := clamp_eq_ok h
    exact ascending_of_keepsRecords rfl rfl rfl
  | boundedSum h => exact ascending_boundedSum h
  | boundedMean h => exact ascending_boundedMean h
  | count p => exact ascending_of_keepsRecords rfl rfl rfl
  | chain _ _ h second first => exact second.chain first h

end Transformation

end PrivateRelease
