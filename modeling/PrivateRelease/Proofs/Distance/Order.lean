import PrivateRelease.Proofs.Number.Upward
import PrivateRelease.Proofs.Mechanism.Monotonicity

/-!
# The order of distances

Distances that are made of numbers are partially ordered, component by component at any depth. A curve
is no such distance: it is compared with pairs only, and is within every pair that is looser than one it
is within, if it does not rise with delta. So a check that passes with a bound passes with a looser one.
-/

namespace PrivateRelease

/-- A number that is no NaN, or a tuple of such distances. -/
inductive Value.IsDistance : Value → Prop where
  | number {q : Numeric} {x : q.Carrier} : Numeric.isNaN x = false → IsDistance (.numeric q x)
  | tuple {vs : List Value} : (∀ v ∈ vs, IsDistance v) → IsDistance (.tuple vs)

/-- The curve has an epsilon at the delta that the value stands for. -/
def Curve.EvaluatesAt (c : Curve) (d : Value) : Prop :=
  ∃ delta epsilon, d.toDouble = .ok delta ∧ c.epsilon delta = .ok epsilon

namespace Value

/-! ## Values of one type -/

theorem order_eq_some {p : Primitive} {x : p.Carrier} {b : Value} {o : Ordering}
    (h : (scalar p x).order b = some o) : ∃ y, b = scalar p y := by
  cases b with
  | scalar q y =>
    rw [order] at h
    split at h
    next same =>
      subst same
      exact ⟨y, rfl⟩
    · cases h
  | _ => cases h

theorem type_eq_tuple {v : Value} {ts : List Descriptor} (h : v.type = .tuple ts) :
    ∃ vs, v = tuple vs ∧ types vs = ts := by
  cases v with
  | tuple vs => exact ⟨vs, rfl, Descriptor.tuple.inj h⟩
  | scalar p x => cases h
  | vector p xs => cases h
  | curve c => cases h

theorem forall₂_of_types {as bs : List Value} (h : types as = types bs) :
    List.Forall₂ (fun a b => a.type = b.type) as bs := by
  rw [types_eq_map, types_eq_map, ← List.forall₂_eq_eq_eq, List.forall₂_map_left_iff,
    List.forall₂_map_right_iff] at h
  exact h

theorem sameList_of_forall₂ {as bs : List Value} (h : List.Forall₂ (fun a b => a.same b) as bs) :
    sameList as bs := by
  induction h with
  | nil => rfl
  | cons same _ ih => simp [sameList, same, ih]

end Value

namespace Distance

open Value

/-! ## Within -/

theorem order_of_leScalar {a b : Value} (h : leScalar a b = .ok true) :
    ∃ o, a.order b = some o := by
  unfold leScalar at h
  split at h
  next o ho => exact ⟨o, ho⟩
  · split at h <;> cases h

theorem le_number_iff {q : Numeric} {x : q.Carrier} {b : Value} :
    le (.numeric q x) b = .ok true ↔ ∃ y, b = .numeric q y ∧ Numeric.le x y := by
  constructor
  · intro h
    have scalars : leScalar (.numeric q x) b = .ok true := by simpa [le, Value.numeric] using h
    obtain ⟨o, ho⟩ := order_of_leScalar scalars
    obtain ⟨y, rfl⟩ := order_eq_some ho
    exact ⟨y, rfl, Except.ok.inj ((le_numeric x y).symm.trans h)⟩
  · rintro ⟨y, rfl, h⟩
    exact (le_numeric x y).trans (congrArg Except.ok h)

theorem leAll_iff {as bs : List Value} (h : as.length = bs.length) :
    leAll as bs = .ok true ↔ List.Forall₂ (fun a b => le a b = .ok true) as bs := by
  induction as generalizing bs with
  | nil =>
    cases bs with
    | nil => exact iff_of_true (by simp [leAll]) .nil
    | cons => cases h
  | cons a as ih =>
    cases bs with
    | nil => cases h
    | cons b bs =>
      rw [leAll, List.forall₂_cons, ← ih (Nat.succ.inj h), bind_eq_ok_iff]
      constructor
      · rintro ⟨_ | _, first, rest⟩
        · cases rest
        · exact ⟨first, rest⟩
      · rintro ⟨first, rest⟩
        exact ⟨true, first, rest⟩

/-- A tuple is within the tuples that its components are within, one by one, and within nothing
else. -/
theorem le_tuple_iff {as : List Value} {b : Value} :
    le (.tuple as) b = .ok true ↔
      ∃ bs, b = .tuple bs ∧ List.Forall₂ (fun a b => le a b = .ok true) as bs := by
  have scalars : leScalar (.tuple as) b ≠ .ok true := fun h => by
    obtain ⟨o, ho⟩ := order_of_leScalar h
    cases b <;> cases ho
  cases b with
  | tuple bs =>
    rw [le]
    split
    next length =>
      rw [leAll_iff length]
      constructor
      · intro within
        exact ⟨bs, rfl, within⟩
      · rintro ⟨_, ⟨⟩, within⟩
        exact within
    next length =>
      refine iff_of_false scalars ?_
      rintro ⟨_, ⟨⟩, within⟩
      exact length within.length_eq
  | scalar p x => exact iff_of_false (by simpa [le] using scalars) (by rintro ⟨_, ⟨⟩, _⟩)
  | vector p xs => exact iff_of_false (by simpa [le] using scalars) (by rintro ⟨_, ⟨⟩, _⟩)
  | curve c => exact iff_of_false (by simpa [le] using scalars) (by rintro ⟨_, ⟨⟩, _⟩)

theorem le_curve_iff {c : Curve} {b : Value} :
    le (.curve c) b = .ok true ↔ ∃ bound delta x e y, b = .tuple [bound, delta] ∧
      delta.toDouble = .ok x ∧ c.epsilon x = .ok e ∧ bound.toDouble = .ok y ∧ e.le y := by
  constructor
  · intro h
    unfold le at h
    split at h
    next bound delta same =>
      cases same
      obtain ⟨x, hx, h⟩ := bind_eq_ok_iff.mp h
      obtain ⟨e, he, h⟩ := bind_eq_ok_iff.mp h
      obtain ⟨y, hy, h⟩ := bind_eq_ok_iff.mp h
      exact ⟨bound, delta, x, e, y, rfl, hx, he, hy, Except.ok.inj h⟩
    next same => cases same
    · obtain ⟨o, ho⟩ := order_of_leScalar h
      cases ho
  · rintro ⟨bound, delta, x, e, y, rfl, hx, he, hy, h⟩
    rw [le, hx, ok_bind, he, ok_bind, hy]
    exact congrArg Except.ok h

theorem toDouble_of_le {a b : Value} {x : Binary .double} (h : le a b = .ok true)
    (ha : a.toDouble = .ok x) : ∃ y, b.toDouble = .ok y ∧ x.le y := by
  obtain ⟨q, u, rfl⟩ : ∃ q u, a = .numeric q u := by
    unfold toDouble at ha
    split at ha
    next q u => exact ⟨q, u, rfl⟩
    · cases ha
  cases ha
  obtain ⟨v, rfl, order⟩ := le_number_iff.mp h
  exact ⟨_, rfl, le_toDouble order⟩

/-! ## The laws of the order -/

theorem exists_leAll {as bs : List Value}
    (h : List.Forall₂ (fun a b => ∃ r, le a b = .ok r) as bs) : ∃ r, leAll as bs = .ok r := by
  induction h with
  | nil => exact ⟨true, by simp [leAll]⟩
  | cons first _ ih =>
    obtain ⟨r, hr⟩ := first
    rw [leAll, hr]
    cases r with
    | false => exact ⟨false, rfl⟩
    | true => exact ih

/-- Distances of one type are compared without an error. -/
theorem exists_le {a b : Value} (ha : a.IsDistance) (h : a.type = b.type) : ∃ r, le a b = .ok r := by
  induction ha generalizing b with
  | @number q x _ =>
    obtain ⟨y, rfl⟩ := type_eq_numeric_iff.mp h.symm
    exact ⟨_, le_numeric x y⟩
  | @tuple as _ ih =>
    obtain ⟨bs, rfl, types⟩ := type_eq_tuple h.symm
    have typed := forall₂_of_types types.symm
    rw [le, if_pos typed.length_eq]
    exact exists_leAll (((List.forall₂_and_left _ _).mpr ⟨ih, typed⟩).imp fun _ _ h => h.1 h.2)

theorem le_refl {a : Value} (ha : a.IsDistance) : le a a = .ok true := by
  induction ha with
  | number number => exact le_number_iff.mpr ⟨_, rfl, Numeric.le_refl number⟩
  | tuple _ ih => exact le_tuple_iff.mpr ⟨_, rfl, List.forall₂_same.mpr ih⟩

theorem forall₂_comp {α : Type} {R S T : α → α → Prop} (h : ∀ a b c, R a b → S b c → T a c)
    {as bs cs : List α} (first : List.Forall₂ R as bs) (second : List.Forall₂ S bs cs) :
    List.Forall₂ T as cs := by
  induction first generalizing cs with
  | nil =>
    cases second
    exact .nil
  | cons hab _ ih =>
    cases second with
    | cons hbc rest => exact .cons (h _ _ _ hab hbc) (ih rest)

theorem le_trans {a b c : Value} (ha : a.IsDistance) (hab : le a b = .ok true)
    (hbc : le b c = .ok true) : le a c = .ok true := by
  -- The first comparison fixes the shape of `b`, and with it the second that of `c`.
  induction ha generalizing b c with
  | number _ =>
    obtain ⟨y, rfl, hxy⟩ := le_number_iff.mp hab
    obtain ⟨z, rfl, hyz⟩ := le_number_iff.mp hbc
    exact le_number_iff.mpr ⟨z, rfl, Numeric.le_trans hxy hyz⟩
  | tuple _ ih =>
    obtain ⟨bs, rfl, first⟩ := le_tuple_iff.mp hab
    obtain ⟨cs, rfl, second⟩ := le_tuple_iff.mp hbc
    exact le_tuple_iff.mpr ⟨cs, rfl, forall₂_comp (fun _ _ _ h hbc => h.1 h.2 hbc)
      ((List.forall₂_and_left _ _).mpr ⟨ih, first⟩) second⟩

theorem le_antisymm {a b : Value} (ha : a.IsDistance) (hab : le a b = .ok true)
    (hba : le b a = .ok true) : a.same b := by
  induction ha generalizing b with
  | number _ =>
    obtain ⟨y, rfl, hxy⟩ := le_number_iff.mp hab
    obtain ⟨_, e, hyx⟩ := le_number_iff.mp hba
    cases e
    rw [Value.numeric, Value.numeric, Value.same, dif_pos rfl]
    exact Numeric.same_of_le hxy hyx
  | tuple _ ih =>
    obtain ⟨bs, rfl, first⟩ := le_tuple_iff.mp hab
    obtain ⟨_, e, second⟩ := le_tuple_iff.mp hba
    cases e
    have same := List.Forall₂.mp (fun _ _ h hba => h.1 h.2 hba)
      ((List.forall₂_and_left _ _).mpr ⟨ih, first⟩) second.flip
    rw [Value.same]
    exact sameList_of_forall₂ same

/-! ## Looser bounds -/

/-- A loss that is compared with a bound: a distance, or a curve that does not rise and has an epsilon
at the delta of the bound. -/
inductive Meets (b : Value) : Value → Prop where
  | distance {l : Value} : l.IsDistance → Meets b l
  | curve {c : Curve} : c.NonIncreasing →
      (∀ bound delta, b = .tuple [bound, delta] → c.EvaluatesAt delta) → Meets b (.curve c)

/-- What is within a bound is within a looser one. -/
theorem Meets.le_trans {l b b' : Value} (h : Meets b' l) (within : le l b = .ok true)
    (looser : le b b' = .ok true) : le l b' = .ok true := by
  cases h with
  | distance hl => exact Distance.le_trans hl within looser
  | curve falling evaluates =>
    obtain ⟨bound, delta, x, e, y, rfl, hx, he, hy, under⟩ := le_curve_iff.mp within
    obtain ⟨_, rfl, pairs⟩ := le_tuple_iff.mp looser
    cases pairs with
    | @cons _ bound' _ _ first rest =>
      cases rest with
      | @cons _ delta' _ _ second none =>
        cases none
        obtain ⟨y', hy', above⟩ := toDouble_of_le first hy
        obtain ⟨x', hx', later⟩ := toDouble_of_le second hx
        obtain ⟨_, e', hx, he'⟩ := evaluates bound' delta' rfl
        cases hx.symm.trans hx'
        have fallen := falling x _ e e' later he he'
        exact le_curve_iff.mpr ⟨bound', delta', _, e', y', rfl, hx', he', hy',
          Binary.le_trans (Binary.le_trans fallen under) above⟩

end Distance

theorem Mechanism.check_iff {m : Mechanism} {d b : Value} :
    m.check d b = .ok true ↔ ∃ l, m.map d = .ok l ∧ Distance.le l b = .ok true := by
  cases m <;> exact bind_eq_ok_iff

/-- Distances are partially ordered, tuples by their components, and what is within a bound is within
every looser one. -/
theorem Distance.le_laws :
    (∀ a b : Value, a.IsDistance → a.type = b.type → ∃ r, le a b = .ok r) ∧
    (∀ a, a.IsDistance → le a a = .ok true) ∧
    (∀ a b c, a.IsDistance → le a b = .ok true → le b c = .ok true → le a c = .ok true) ∧
    (∀ a b, a.IsDistance → le a b = .ok true → le b a = .ok true → a.same b) ∧
    (∀ as b, le (.tuple as) b = .ok true ↔
      ∃ bs, b = .tuple bs ∧ List.Forall₂ (fun a b => le a b = .ok true) as bs) ∧
    (∀ (c : Curve) (e d e' d' : Value), c.NonIncreasing → c.EvaluatesAt d' →
      le (.curve c) (.tuple [e, d]) = .ok true →
      le (.tuple [e, d]) (.tuple [e', d']) = .ok true →
      le (.curve c) (.tuple [e', d']) = .ok true) ∧
    ∀ (m : Mechanism) (d b b' : Value), (∀ l, m.map d = .ok l → Meets b' l) →
      m.check d b = .ok true → le b b' = .ok true → m.check d b' = .ok true := by
  refine ⟨fun a b ha h => exists_le ha h, fun a ha => le_refl ha,
    fun a b c ha hab hbc => le_trans ha hab hbc, fun a b ha hab hba => le_antisymm ha hab hba,
    fun as b => le_tuple_iff, fun c e d e' d' falling evaluates within looser => ?_,
    fun m d b b' meets passed looser => ?_⟩
  · have meets : Meets (.tuple [e', d']) (.curve c) := .curve falling (by
      rintro _ _ ⟨⟩
      exact evaluates)
    exact meets.le_trans within looser
  · obtain ⟨l, mapped, within⟩ := Mechanism.check_iff.mp passed
    exact Mechanism.check_iff.mpr ⟨l, mapped, (meets l mapped).le_trans within looser⟩

/-- A pair in a pair, and a curve of one epsilon at every delta. -/
theorem Distance.le_laws_nested :
    letI nested (n : Int) : Value := .tuple [.tuple [.count n, .float .double (1 / 2)], .count 3]
    letI flat : Curve := ⟨.float .double, fun _ => .ok 1, none⟩
    (nested 1).IsDistance ∧ le (nested 1) (nested 2) = .ok true ∧
      le (nested 2) (nested 4) = .ok true ∧ le (nested 1) (nested 4) = .ok true ∧
      le (.curve flat) (.tuple [.count 1, .float .double (1 / 4)]) = .ok true ∧
      le (.curve flat) (.tuple [.count 2, .float .double (1 / 2)]) = .ok true := by
  let nested (n : Int) : Value := .tuple [.tuple [.count n, .float .double (1 / 2)], .count 3]
  let flat : Curve := ⟨.float .double, fun _ => .ok 1, none⟩
  obtain ⟨-, refl, trans, -, tuples, curves, -⟩ := le_laws
  have pair : ∀ {a b a' b'}, le a a' = .ok true → le b b' = .ok true →
      le (.tuple [a, b]) (.tuple [a', b']) = .ok true := fun first second =>
    (tuples _ _).mpr ⟨_, rfl, .cons first (.cons second .nil)⟩
  have half : (Value.float .double (1 / 2)).IsDistance := .number (by decide +kernel)
  have three : (Value.count 3).IsDistance := .number rfl
  have counts : ∀ {m n : Int}, Numeric.le (q := .integer .u32) (.clamp .u32 m) (.clamp .u32 n) →
      le (.count m) (.count n) = .ok true := fun h => le_number_iff.mpr ⟨_, rfl, h⟩
  have isDistance : (nested 1).IsDistance := by
    refine .tuple (List.forall_mem_cons.mpr ⟨.tuple ?_, List.forall_mem_singleton.mpr three⟩)
    exact List.forall_mem_cons.mpr ⟨.number rfl, List.forall_mem_singleton.mpr half⟩
  have first : le (nested 1) (nested 2) = .ok true :=
    pair (pair (counts (by decide)) (refl _ half)) (refl _ three)
  have second : le (nested 2) (nested 4) = .ok true :=
    pair (pair (counts (by decide)) (refl _ half)) (refl _ three)
  have delta : ∀ x : Binary .double, (Value.float .double x).toDouble = .ok x := fun x =>
    congrArg Except.ok (Binary.convert_self x)
  have epsilon : ∀ {x : Binary .double}, Curve.isProbability x → flat.epsilon x = .ok 1 := fun h =>
    if_pos h
  have falling : flat.NonIncreasing := by
    intro x y e e' _ he he'
    cases (Curve.epsilon_eq_ok he).2
    cases (Curve.epsilon_eq_ok he').2
    decide +kernel
  have passes : le (.curve flat) (.tuple [.count 1, .float .double (1 / 4)]) = .ok true :=
    le_curve_iff.mpr ⟨_, _, _, _, _, rfl, delta _, epsilon (by decide +kernel), rfl,
      by decide +kernel⟩
  have looser : le (.float .double (1 / 4)) (.float .double (1 / 2)) = .ok true :=
    (le_float _ _).trans (congrArg Except.ok (by decide +kernel))
  exact ⟨isDistance, first, second, trans _ _ _ isDistance first second, passes,
    curves flat _ _ _ _ falling ⟨_, _, delta _, epsilon (by decide +kernel)⟩ passes
      (pair (counts (by decide)) looser)⟩

end PrivateRelease
