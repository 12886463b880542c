import PrivateRelease.Domain.Member

/-!
# Members of equal domains

Numbers of every type have a place on a line, NaN apart, and their order and equality are those of
places. Domains that are equal as structures have the same carrier and the same members.
-/

namespace PrivateRelease

namespace Numeric

/-- The place on the line of the numbers of a type; none for NaN. -/
def place : {q : Numeric} → q.Carrier → Option Int
  | integer _, x => some (Bounded.val x)
  | float _, x => Binary.position x

variable {q : Numeric} {x y z : q.Carrier}

theorem order_eq_some_iff {o : Ordering} :
    order x y = some o ↔ ∃ i j, place x = some i ∧ place y = some j ∧ compare i j = o := by
  cases q with
  | integer k => simp [order, place]
  | float p =>
    show Binary.order x y = some o ↔ _
    unfold Binary.order
    cases hx : Binary.position x <;> cases hy : Binary.position y <;> simp [place, hx, hy]

theorem le_iff : le x y ↔ ∃ i j, place x = some i ∧ place y = some j ∧ i ≤ j := by
  unfold le
  constructor
  · intro h
    split at h
    · next o ho =>
      obtain ⟨i, j, hi, hj, rfl⟩ := order_eq_some_iff.mp ho
      exact ⟨i, j, hi, hj, Std.isLE_compare.mp h⟩
    · cases h
  · rintro ⟨i, j, hi, hj, hij⟩
    rw [order_eq_some_iff.mpr ⟨i, j, hi, hj, rfl⟩]
    exact Std.isLE_compare.mpr hij

theorem same_iff : same x y ↔ ∃ i, place x = some i ∧ place y = some i := by
  cases q with
  | integer k =>
    show (x == y) = true ↔ _
    rw [beq_iff_eq]
    constructor
    · rintro rfl
      exact ⟨_, rfl, rfl⟩
    · rintro ⟨i, hx, hy⟩
      cases x
      cases y
      cases hx
      cases hy
      rfl
  | float p =>
    show Binary.same x y ↔ _
    unfold Binary.same
    cases hx : Binary.position x <;> cases hy : Binary.position y <;> simp [place, hx, hy]
    exact eq_comm

theorem isNaN_iff : isNaN x ↔ place x = none := by
  cases q with
  | integer k => simp [isNaN, place]
  | float p =>
    show Binary.isNaN x ↔ Binary.position x = none
    cases x <;> simp [Binary.isNaN, Binary.position]

theorem le_refl (h : isNaN x = false) : le x x := by
  obtain ⟨i, hi⟩ := Option.ne_none_iff_exists'.mp (mt isNaN_iff.mpr (Bool.eq_false_iff.mp h))
  exact le_iff.mpr ⟨i, i, hi, hi, Int.le_refl i⟩

theorem le_trans (h : le x y) (h' : le y z) : le x z := by
  obtain ⟨i, j, hi, hj, hij⟩ := le_iff.mp h
  obtain ⟨j', k, hj', hk, hjk⟩ := le_iff.mp h'
  cases hj.symm.trans hj'
  exact le_iff.mpr ⟨i, k, hi, hk, Int.le_trans hij hjk⟩

theorem same_of_le (h : le x y) (h' : le y x) : same x y := by
  obtain ⟨i, j, hi, hj, hij⟩ := le_iff.mp h
  obtain ⟨j', i', hj', hi', hji⟩ := le_iff.mp h'
  cases hi.symm.trans hi'
  cases hj.symm.trans hj'
  cases Int.le_antisymm hij hji
  exact same_iff.mpr ⟨i, hi, hj⟩

/-- Equal numbers are in the same order to every number. -/
theorem le_congr_left (h : same x y) (z : q.Carrier) : le x z = le y z := by
  obtain ⟨i, hx, hy⟩ := same_iff.mp h
  rw [Bool.eq_iff_iff, le_iff, le_iff, hx, hy]

theorem le_congr_right (h : same x y) (z : q.Carrier) : le z x = le z y := by
  obtain ⟨i, hx, hy⟩ := same_iff.mp h
  rw [Bool.eq_iff_iff, le_iff, le_iff, hx, hy]

end Numeric

namespace Value

theorem type_eq_vector {p : Primitive} {v : Value} (h : v.type = .vector (.primitive p)) :
    ∃ xs, v = .vector p xs := by
  cases v with
  | vector q xs =>
    cases h
    exact ⟨xs, rfl⟩
  | curve c =>
    have name := congrArg Descriptor.generic? h
    simp [type, Curve.descriptor, Descriptor.generic?, Descriptor.vector] at name
  | _ => cases h

end Value

namespace Domain

/-- The members of vectors over a domain of scalars. -/
theorem member_vector_iff {inner : Domain} {p : Primitive} (h : inner.carrier = .primitive p)
    {v : Value} :
    (vector inner).member v ↔ ∃ xs, v = .vector p xs ∧ ∀ x ∈ xs, inner.member (.scalar p x) := by
  rw [member, h, Bool.and_eq_true, beq_iff_eq]
  constructor
  · rintro ⟨ht, hm⟩
    obtain ⟨xs, rfl⟩ := Value.type_eq_vector ht
    refine ⟨xs, rfl, ?_⟩
    simpa [Value.elements?] using hm
  · rintro ⟨xs, rfl, hm⟩
    exact ⟨rfl, by simpa [Value.elements?] using hm⟩

theorem member_all_iff {p : Primitive} {x : p.Carrier} :
    (all (.primitive p)).member (.scalar p x) ↔ Primitive.isNaN x = false := by
  simp [member, Value.type, isNaN]

theorem member_interval_iff {q : Numeric} {lower upper x : q.Carrier}
    {ordered : Numeric.le lower upper} :
    (interval q lower upper ordered).member (.scalar (.numeric q) x) ↔
      Numeric.le lower x ∧ Numeric.le x upper := by
  simp [member, Value.scalar?_scalar]

theorem member_of_sized {inner : Domain} {size : Nat} {v : Value}
    (h : (sized inner size).member v) : inner.member v := by
  rw [member] at h
  split at h
  · split at h
    · exact (Bool.and_eq_true_iff.mp h).2
    · cases h
  · cases h

/-! ## Equal domains -/

mutual

theorem carrier_eq_of_same {d e : Domain} (h : d.same e) : d.carrier = e.carrier := by
  match d with
  | all d =>
    cases e with
    | all e =>
      simp only [same, beq_iff_eq] at h
      rw [h]
    | _ => cases h
  | interval q _ _ _ =>
    cases e with
    | interval r _ _ _ =>
      rw [same] at h
      split at h
      · next hq => rw [carrier, carrier, hq]
      · cases h
    | _ => cases h
  | vector d =>
    cases e with
    | vector e =>
      rw [same] at h
      rw [carrier, carrier, carrier_eq_of_same h]
    | _ => cases h
  | sized d n =>
    cases e with
    | sized e m =>
      simp only [same, Bool.and_eq_true] at h
      rw [carrier, carrier, carrier_eq_of_same h.1]
    | _ => cases h
  | product ds =>
    cases e with
    | product es =>
      rw [same] at h
      rw [carrier, carrier, carriers_eq_of_sameList h]
    | _ => cases h

theorem carriers_eq_of_sameList {ds es : List Domain} (h : sameList ds es) :
    carriers ds = carriers es := by
  match ds, es with
  | [], [] => rfl
  | d :: ds, e :: es =>
    simp only [sameList, Bool.and_eq_true] at h
    rw [carriers, carriers, carrier_eq_of_same h.1, carriers_eq_of_sameList h.2]
  | [], _ :: _ => cases h
  | _ :: _, [] => cases h

end

mutual

theorem member_of_same {d e : Domain} (h : d.same e) (v : Value) : d.member v = e.member v := by
  match d with
  | all d =>
    cases e with
    | all e =>
      simp only [same, beq_iff_eq] at h
      rw [h]
    | _ => cases h
  | interval q _ _ _ =>
    cases e with
    | interval r _ _ _ =>
      rw [same] at h
      split at h
      · next hq =>
        subst hq
        obtain ⟨lower, upper⟩ := Bool.and_eq_true_iff.mp h
        simp only [member, Numeric.le_congr_left lower, Numeric.le_congr_right upper]
      · cases h
    | _ => cases h
  | vector d =>
    cases e with
    | vector e =>
      rw [same] at h
      have items : ∀ v, d.member v = e.member v := fun v => member_of_same h v
      rw [member, member, carrier_eq_of_same h, funext items]
    | _ => cases h
  | sized d n =>
    cases e with
    | sized e m =>
      simp only [same, Bool.and_eq_true, beq_iff_eq] at h
      rw [member, member, carrier_eq_of_same h.1, member_of_same h.1 v, h.2]
    | _ => cases h
  | product ds =>
    cases e with
    | product es =>
      rw [same] at h
      cases v with
      | tuple vs => rw [member, member, memberwise_of_sameList h vs]
      | _ => rfl
    | _ => cases h

theorem memberwise_of_sameList {ds es : List Domain} (h : sameList ds es) (vs : List Value) :
    memberwise ds vs = memberwise es vs := by
  match ds, es with
  | [], [] => rfl
  | d :: ds, e :: es =>
    simp only [sameList, Bool.and_eq_true] at h
    cases vs with
    | nil => rfl
    | cons v vs =>
      rw [memberwise, memberwise, member_of_same h.1 v, memberwise_of_sameList h.2 vs]
  | [], _ :: _ => cases h
  | _ :: _, [] => cases h

end

end Domain

end PrivateRelease
