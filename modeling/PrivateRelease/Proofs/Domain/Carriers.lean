import PrivateRelease.Proofs.Domain.Membership
import PrivateRelease.Proofs.Mechanism.Built

/-!
# Members and their types

A value is in a domain or it is not: looking for its parts never fails. Every member has the type that
the domain names, and domains that are accepted as equal where two mechanisms meet have the same
members, also where their bounds are zeros of different signs.
-/

namespace PrivateRelease

theorem Value.scalar?_eq_some_iff {p : Primitive} {v : Value} {x : p.Carrier} :
    v.scalar? p = some x ↔ v = .scalar p x := by
  constructor
  · intro h
    cases v with
    | scalar q y =>
      rw [scalar?] at h
      split at h
      · next hq =>
        subst hq
        cases h
        rfl
      · cases h
    | _ => cases h
  · rintro rfl
    exact scalar?_scalar p x

namespace Domain

/-! ## Looking for a member -/

mutual

/-- Membership part by part, up to the first part that is not a member or cannot be looked at. -/
def examine : Domain → Value → Except Error Bool
  | all d, v => .ok (v.type == d && !isNaN v)
  | interval q lower upper _, v =>
    match v.scalar? (.numeric q) with
    | some x => .ok (Numeric.le lower x && Numeric.le x upper)
    | none => .ok false
  | vector inner, v =>
    if v.type == .vector inner.carrier then
      match v.elements? with
      | some items => items.allM fun item => inner.examine item
      | none => .ok false
    else .ok false
  | sized inner size, v =>
    match inner.carrier.element? with
    | some element =>
      match v.length element with
      | .ok n => if n == size then inner.examine v else .ok false
      -- A value without a length is no member; why it has none is not told.
      | .error _ => .ok false
    | none => .ok false
  | product parts, v =>
    match v with
    | .tuple items => if items.length == parts.length then examineParts parts items else .ok false
    | _ => .ok false

/-- The values are taken with the domains, as far as there are both. -/
def examineParts : List Domain → List Value → Except Error Bool
  | d :: ds, v :: vs => do
    if ← d.examine v then examineParts ds vs else return false
  | _, _ => .ok true

end

theorem memberwise_length {ds : List Domain} {vs : List Value} (h : memberwise ds vs) :
    vs.length = ds.length := by
  induction ds generalizing vs with
  | nil =>
    cases vs with
    | nil => rfl
    | cons v vs => cases h
  | cons d ds ih =>
    cases vs with
    | nil => cases h
    | cons v vs =>
      rw [memberwise, Bool.and_eq_true] at h
      rw [List.length_cons, List.length_cons, ih h.2]

mutual

theorem examine_eq (d : Domain) (v : Value) : d.examine v = .ok (d.member v) := by
  match d with
  | all d => rw [examine, member]
  | interval q lower upper _ =>
    rw [examine, member]
    cases v.scalar? (.numeric q) <;> rfl
  | vector inner =>
    have items : (fun v => inner.examine v) = fun v => pure (inner.member v) :=
      funext fun v => examine_eq inner v
    rw [examine, member]
    cases v.type == .vector inner.carrier with
    | false => rfl
    | true =>
      cases v.elements? with
      | none => rfl
      | some vs =>
        simp only [if_true, items, Bool.true_and]
        exact List.allM_pure
  | sized inner size =>
    rw [examine, member]
    cases inner.carrier.element? with
    | none => rfl
    | some element =>
      dsimp only
      cases v.length element with
      | error e => rfl
      | ok n =>
        dsimp only
        cases n == size with
        | false => rfl
        | true => rw [if_pos rfl, examine_eq inner v, Bool.true_and]
  | product parts =>
    cases v with
    | tuple items =>
      -- The lists are equally long when they are gone through, so the shorter one decides nothing.
      rw [examine, member]
      by_cases h : items.length = parts.length
      · rw [if_pos (beq_iff_eq.mpr h), examineParts_eq h]
      · rw [if_neg (mt beq_iff_eq.mp h), Bool.eq_false_iff.mpr (mt memberwise_length h)]
    | _ => rfl

theorem examineParts_eq {ds : List Domain} {vs : List Value} (h : vs.length = ds.length) :
    examineParts ds vs = .ok (memberwise ds vs) := by
  match ds, vs with
  | [], [] => rfl
  | d :: ds, v :: vs =>
    rw [examineParts, memberwise, examine_eq d v, ok_bind]
    cases d.member v with
    | false => rfl
    | true => rw [if_pos rfl, examineParts_eq (Nat.succ.inj h), Bool.true_and]

end

/-! ## Types -/

mutual

theorem type_eq_carrier {d : Domain} {v : Value} (h : d.member v) : v.type = d.carrier := by
  match d with
  | all d =>
    rw [member, Bool.and_eq_true, beq_iff_eq] at h
    exact h.1
  | interval q lower upper _ =>
    rw [member] at h
    split at h
    · next x hx =>
      rw [Value.scalar?_eq_some_iff.mp hx]
      rfl
    · cases h
  | vector inner =>
    rw [member, Bool.and_eq_true, beq_iff_eq] at h
    exact h.1
  | sized inner size => exact type_eq_carrier (d := inner) (member_of_sized h)
  | product parts =>
    cases v with
    | tuple items =>
      rw [member] at h
      exact congrArg Descriptor.tuple (types_eq_carriers h)
    | _ => cases h

theorem types_eq_carriers {ds : List Domain} {vs : List Value} (h : memberwise ds vs) :
    Value.types vs = carriers ds := by
  match ds, vs with
  | [], [] => rfl
  | d :: ds, v :: vs =>
    rw [memberwise, Bool.and_eq_true] at h
    exact congrArg₂ List.cons (type_eq_carrier h.1) (types_eq_carriers h.2)
  | [], _ :: _ => cases h
  | _ :: _, [] => cases h

end

/-- Membership is decided for every value, members have the type of the domain, and equal domains have
the same type and members; so what one mechanism hands over is a member for the next exactly if it is
one for the first. -/
theorem members_typed (d : Domain) :
    (∀ v, d.examine v = .ok (d.member v)) ∧
    (∀ v, d.member v → v.type = d.carrier) ∧
    (∀ e, d.same e → d.carrier = e.carrier ∧ ∀ v, d.member v = e.member v) ∧
    ∀ t metric, checkBoundary t d metric = .ok () →
      ∀ v, t.outputDomain.member v = d.member v :=
  ⟨d.examine_eq, fun _ => type_eq_carrier,
    fun _ h => ⟨carrier_eq_of_same h, member_of_same h⟩,
    fun _ _ h => member_of_same (checkBoundary_eq_ok h).1⟩

/-- Pairs from the negative zero up and pairs from the positive zero up are the same pairs. -/
theorem members_typed_zeros :
    letI pairs (records : Domain) : Domain :=
      .product [.sized (.vector records) 2, .all (.primitive .bool)]
    letI below : Domain := pairs (.interval (.float .double) (.zero true) (.infinite false) rfl)
    letI above : Domain := pairs (.interval (.float .double) (.zero false) (.infinite false) rfl)
    letI v : Value :=
      .tuple [.vector (.numeric (.float .double)) [.zero true, .zero false], .bool true]
    above.examine v = .ok true ∧
    v.type = .tuple [.vector (.float .double), .primitive .bool] ∧
    above.carrier = below.carrier ∧
    ({ Transformation.identity .bool with outputDomain := below }).outputDomain.member v := by
  let pairs (records : Domain) : Domain :=
    .product [.sized (.vector records) 2, .all (.primitive .bool)]
  let below : Domain := pairs (.interval (.float .double) (.zero true) (.infinite false) rfl)
  let above : Domain := pairs (.interval (.float .double) (.zero false) (.infinite false) rfl)
  let v : Value :=
    .tuple [.vector (.numeric (.float .double)) [.zero true, .zero false], .bool true]
  let t := { Transformation.identity .bool with outputDomain := below }
  obtain ⟨examined, typed, equal, meets⟩ := members_typed above
  have member : above.member v := by decide
  refine ⟨(examined v).trans (congrArg _ member), typed v member, ?_, ?_⟩
  · exact (equal below (by decide)).1
  · exact (meets t t.outputMetric rfl v).trans member

end Domain

end PrivateRelease
