import Mathlib.Data.Multiset.AddSub
import Mathlib.Data.Multiset.MapFold
import PrivateRelease.Proofs.Mechanism.Chaining
import PrivateRelease.Proofs.Mechanism.Closure

/-!
# Stability of transformations of records

What the distances of a map promise of two runs: datasets within `d` records of each other have
outputs within the distance that the map gives for `d`. Datasets are compared as multisets. Treating
every record on its own brings no two datasets further apart, and a count moves by at most a record
for each; the limit of counts only brings them closer.
-/

namespace PrivateRelease

/-! ## Distances of multisets -/

section Multisets

variable {α β : Type} [DecidableEq α] [DecidableEq β]

/-- The size of the symmetric difference: the records in one of the two but not in the other. -/
def recordsApart (xs ys : Multiset α) : Nat := (xs - ys).card + (ys - xs).card

theorem card_map_sub_map_le (f : α → β) (xs ys : Multiset α) :
    (xs.map f - ys.map f).card ≤ (xs - ys).card := by
  have cover : xs.map f ≤ (xs - ys).map f + ys.map f := by
    rw [← Multiset.map_add]
    exact Multiset.map_le_map Multiset.le_sub_add
  have below := Multiset.card_le_card (Multiset.sub_le_iff_le_add.mpr cover)
  rwa [Multiset.card_map] at below

theorem recordsApart_map_le (f : α → β) (xs ys : Multiset α) :
    recordsApart (xs.map f) (ys.map f) ≤ recordsApart xs ys :=
  Nat.add_le_add (card_map_sub_map_le f xs ys) (card_map_sub_map_le f ys xs)

theorem card_le_card_add_sub (xs ys : Multiset α) : xs.card ≤ (xs - ys).card + ys.card := by
  rw [← Multiset.card_add]
  exact Multiset.card_le_card Multiset.le_sub_add

/-- Every record more or less is one record apart. -/
theorem card_sub_card_le (xs ys : Multiset α) :
    ((xs.card : Int) - ys.card).natAbs ≤ recordsApart xs ys := by
  have left := card_le_card_add_sub xs ys
  have right := card_le_card_add_sub ys xs
  unfold recordsApart
  omega

end Multisets

/-! ## Likeness of records -/

/-- Which records are the same one. -/
inductive Likeness where
  /-- Those of one representation, which tells the zeros apart. -/
  | represented
  /-- Those that are equal as numbers. -/
  | numeric

namespace Likeness

/-- The one record that stands for all that are the same. -/
def canonical (l : Likeness) : {p : Primitive} → p.Carrier → p.Carrier
  | .numeric (.float _), x =>
    match l with
    | represented => x
    | numeric => if Binary.isZero x then Binary.zero false else x
  | .numeric (.integer _), x => x
  | .bool, x => x
  | .string, x => x

/-- Records are as they are ordered. -/
theorem order_canonical (l : Likeness) {p : Primitive} (x y : p.Carrier) :
    Primitive.order (l.canonical x) y = Primitive.order x y := by
  rcases p with _ | (k | p) | _
  · rfl
  · rfl
  · cases l with
    | represented => rfl
    | numeric =>
      cases x with
      | nan s n h => rfl
      | number s r h =>
        show Binary.order (if r == 0 then Binary.zero false else .number s r h) y =
          Binary.order (.number s r h) y
        split
        next zero =>
          have position : (Binary.zero false : Binary p).position =
              (Binary.number s r h).position := by
            rw [Binary.position_zero]
            simp [Binary.position, beq_iff_eq.mp zero]
          unfold Binary.order
          rw [position]
        · rfl
  · rfl

theorem canonical_canonical (l : Likeness) {p : Primitive} (x : p.Carrier) :
    l.canonical (l.canonical x) = l.canonical x := by
  rcases p with _ | (k | p) | _
  · rfl
  · rfl
  · cases l with
    | represented => rfl
    | numeric =>
      show (if Binary.isZero (if Binary.isZero x then Binary.zero false else x) then
        Binary.zero false else if Binary.isZero x then Binary.zero false else x) =
          if Binary.isZero x then Binary.zero false else x
      split <;> rfl
  · rfl

/-- What is the same is clamped to the same. -/
theorem canonical_clampTo (l : Likeness) {p : Primitive} (lower upper x : p.Carrier) :
    l.canonical (Transformation.clampTo lower upper x) =
      l.canonical (Transformation.clampTo lower upper (l.canonical x)) := by
  unfold Transformation.clampTo
  rw [order_canonical, order_canonical]
  split
  · rfl
  · split
    · rfl
    · exact (l.canonical_canonical x).symm

/-- A dataset up to the order of its records. -/
def records (l : Likeness) {p : Primitive} (xs : List p.Carrier) : Multiset p.Carrier :=
  (Multiset.ofList xs).map l.canonical

theorem records_clamp (l : Likeness) {p : Primitive} (lower upper : p.Carrier)
    (xs : List p.Carrier) : l.records (xs.map (Transformation.clampTo lower upper)) =
      (l.records xs).map fun x => l.canonical (Transformation.clampTo lower upper x) := by
  simp only [records, ← Multiset.map_coe, Multiset.map_map, Function.comp_def]
  exact Multiset.map_congr rfl fun x _ => l.canonical_clampTo lower upper x

theorem card_records (l : Likeness) {p : Primitive} (xs : List p.Carrier) :
    (l.records xs).card = xs.length := by
  rw [records, Multiset.card_map, Multiset.coe_card]

end Likeness

/-- Values within a distance of each other: datasets by their symmetric difference, whole numbers by
their absolute difference. -/
inductive Near (l : Likeness) : Metric → Value → Value → Value → Prop where
  | records {p : Primitive} {xs ys : List p.Carrier} {n : Bounded .u32} :
      recordsApart (l.records xs) (l.records ys) ≤ n.val →
      Near l .symmetricDistance (.vector p xs) (.vector p ys) (.integer .u32 n)
  | integers {k : IntegerType} {x y n : Bounded k} : (x.val - y.val).natAbs ≤ n.val →
      Near l (.absoluteDistance (.integer k)) (.integer k x) (.integer k y) (.integer k n)

theorem Bounded.clamp_near {k : IntegerType} (m n : Int) :
    ((Bounded.clamp k m).val - (Bounded.clamp k n).val).natAbs ≤ (m - n).natAbs := by
  simp only [Bounded.clamp]
  have := k.least_le_greatest
  omega

/-- Every count of records is a distance. -/
theorem Distance.validate_count (n : Bounded .u32) : validate (.integer .u32 n) = .ok () := by
  obtain ⟨k, hk⟩ := Int.eq_ofNat_of_zero_le n.least_le
  have usable : isUsable (Binary.ofInt n.val) := by
    rw [hk]
    rcases Nat.eq_zero_or_pos k with rfl | pos
    · decide
    · have small : n.val ≤ 2 ^ 32 - 1 := n.le_greatest
      obtain ⟨r, hr, number, finite, _, _⟩ := Binary.exists_ofNat pos (by omega)
      have value : (Binary.ofInt k : Binary .double) = .number false r hr := number
      have zero : (0 : Binary .double).position = some 0 := Binary.position_zero false
      have notNegative : (Binary.number false r hr).lt 0 = false := by
        rw [Binary.lt, zero]
        simp [Binary.position]
      rw [value]
      simp [isUsable, Binary.isFinite, Nat.ne_of_lt finite, notNegative]
  unfold Value.integer Value.numeric validate
  exact if_pos usable

namespace Transformation

/-- What treats every record on its own, or counts the records. -/
inductive RecordWise : Transformation → Prop where
  | identity (p : Primitive) : RecordWise (.identity p)
  | clamp {p : Primitive} {lower upper : p.Carrier} {t : Transformation} :
      clamp p lower upper = .ok t → RecordWise t
  | count (p : Primitive) : RecordWise (.count p)
  | chain {second first t : Transformation} :
      RecordWise second → RecordWise first → chain second first = .ok t → RecordWise t

/-- Members of the input domain within `d` have outputs within what `t` maps `d` to. -/
def Stable (t : Transformation) (l : Likeness) : Prop :=
  ∀ x y d dOut, t.inputDomain.member x → t.inputDomain.member y → Near l t.inputMetric x y d →
    t.boundAt d = .ok dOut →
    ∃ x' y', t.function x = .ok x' ∧ t.function y = .ok y' ∧ Near l t.outputMetric x' y' dOut

variable {l : Likeness}

theorem boundAt_eq_ok {t : Transformation} {d dOut : Value} (h : t.boundAt d = .ok dOut) :
    t.stability d = .ok dOut := by
  obtain ⟨_, _, h⟩ := bind_eq_ok_iff.mp h
  exact h

theorem keepsRecords_count (n : Bounded .u32) :
    keepsRecords (.integer .u32 n) = .ok (.integer .u32 n) := rfl

theorem stable_identity (p : Primitive) : (identity p).Stable l := by
  intro x y d dOut _ _ near hd
  cases near with
  | records apart =>
    cases (keepsRecords_count _).symm.trans (boundAt_eq_ok hd)
    exact ⟨_, _, rfl, rfl, .records apart⟩

theorem clamp_function {p : Primitive} {lower upper : p.Carrier} {t : Transformation}
    (h : clamp p lower upper = .ok t) (xs : List p.Carrier) :
    t.function (.vector p xs) = .ok (.vector p (xs.map (clampTo lower upper))) := by
  obtain ⟨_, _, rfl⟩ := clamp_eq_ok h
  simp only [toVector_vector]
  rfl

theorem stable_clamp {p : Primitive} {lower upper : p.Carrier} {t : Transformation}
    (h : clamp p lower upper = .ok t) : t.Stable l := by
  have run := clamp_function h
  obtain ⟨_, _, rfl⟩ := clamp_eq_ok h
  intro x y d dOut hx hy near hd
  obtain ⟨xs, rfl, _⟩ := (Domain.member_vector_iff rfl).mp hx
  obtain ⟨ys, rfl, _⟩ := (Domain.member_vector_iff rfl).mp hy
  cases near with
  | records apart =>
    cases (keepsRecords_count _).symm.trans (boundAt_eq_ok hd)
    refine ⟨_, _, run xs, run ys, .records ?_⟩
    rw [l.records_clamp, l.records_clamp]
    exact Int.le_trans (Int.ofNat_le.mpr (recordsApart_map_le _ _ _)) apart

theorem count_function (p : Primitive) (xs : List p.Carrier) :
    (count p).function (.vector p xs) = .ok (.count xs.length) := by
  simp only [count, Value.length, if_true]
  rfl

theorem stable_count (p : Primitive) : (count p).Stable l := by
  intro x y d dOut hx hy near hd
  obtain ⟨xs, rfl, _⟩ := (Domain.member_vector_iff rfl).mp hx
  obtain ⟨ys, rfl, _⟩ := (Domain.member_vector_iff rfl).mp hy
  cases near with
  | records apart =>
    cases (keepsRecords_count _).symm.trans (boundAt_eq_ok hd)
    refine ⟨_, _, count_function p xs, count_function p ys, .integers ?_⟩
    have sizes := card_sub_card_le (l.records xs) (l.records ys)
    rw [l.card_records, l.card_records] at sizes
    have held := Bounded.clamp_near (k := .u32) xs.length ys.length
    omega

/-- Where two stable transformations meet, members, metric and distance are handed on. -/
theorem Stable.chain {second first t : Transformation} (hs : second.Stable l) (hf : first.Stable l)
    (closed : first.Closed) (h : Transformation.chain second first = .ok t) : t.Stable l := by
  obtain ⟨meets, metric, rfl⟩ := chain_eq_ok h
  intro x y d dOut hx hy near hd
  obtain ⟨dMid, hMid, hOut⟩ := bind_eq_ok_iff.mp (boundAt_eq_ok hd)
  obtain ⟨x₁, y₁, runX, runY, near⟩ := hf x y d dMid hx hy near hMid
  have handed : ∀ {v w}, first.inputDomain.member v → first.function v = .ok w →
      second.inputDomain.member w := by
    intro v w hv run
    obtain ⟨_, run', member⟩ := closed v hv
    cases run.symm.trans run'
    rwa [Domain.member_of_same meets] at member
  rw [metric] at near
  obtain ⟨x₂, y₂, runX', runY', near⟩ := hs x₁ y₁ dMid dOut (handed hx runX) (handed hy runY) near hOut
  exact ⟨x₂, y₂, bind_eq_ok_iff.mpr ⟨x₁, runX, runX'⟩, bind_eq_ok_iff.mpr ⟨y₁, runY, runY'⟩, near⟩

namespace RecordWise

variable {t : Transformation}

theorem closed (h : t.RecordWise) : t.Closed := by
  induction h with
  | identity p => exact closed_identity p
  | clamp h => exact closed_clamp h
  | count p => exact closed_count p
  | chain _ _ h second first => exact second.chain first h

theorem stable_run (h : t.RecordWise) : t.Stable l := by
  induction h with
  | identity p => exact stable_identity p
  | clamp h => exact stable_clamp h
  | count p => exact stable_count p
  | chain _ hf h second first => exact second.chain first hf.closed h

theorem inputMetric (h : t.RecordWise) : t.inputMetric = .symmetricDistance := by
  induction h with
  | identity p => rfl
  | clamp h =>
    obtain ⟨_, _, rfl⟩ := clamp_eq_ok h
    rfl
  | count p => rfl
  | chain _ _ h _ first =>
    obtain ⟨_, _, rfl⟩ := chain_eq_ok h
    exact first

/-- Every count of records is kept. -/
theorem boundAt (h : t.RecordWise) (n : Bounded .u32) :
    t.boundAt (.integer .u32 n) = .ok (.integer .u32 n) := by
  have kept : (Distance.validate (.integer .u32 n) >>= fun _ => keepsRecords (.integer .u32 n)) =
      .ok (.integer .u32 n) := by
    rw [Distance.validate_count]
    rfl
  induction h with
  | identity p => exact kept
  | clamp h =>
    obtain ⟨_, _, rfl⟩ := clamp_eq_ok h
    exact kept
  | count p => exact kept
  | @chain second first t _ _ h toSecond toFirst =>
    obtain ⟨_, _, rfl⟩ := chain_eq_ok h
    show (Distance.validate (.integer .u32 n) >>= fun _ =>
      first.boundAt (.integer .u32 n) >>= second.boundAt) = _
    rw [Distance.validate_count, ok_bind, toFirst, ok_bind, toSecond]

theorem map (h : t.RecordWise) (n : Bounded .u32) :
    t.map (.integer .u32 n) = .ok (.integer .u32 n) := by
  have typed : (Value.integer .u32 n).type = t.inputMetric.distanceType := by
    rw [h.inputMetric]
    rfl
  rw [map_of_type typed]
  exact h.boundAt n

/-- Two datasets within `n` records of each other are both accepted, and their outputs are within what
`n` is mapped to. -/
theorem outputs_near (h : t.RecordWise) (l : Likeness) {x y : Value} (hx : t.inputDomain.member x)
    (hy : t.inputDomain.member y) {n : Bounded .u32}
    (near : Near l .symmetricDistance x y (.integer .u32 n)) :
    ∃ x' y' d, t.invoke x = .ok x' ∧ t.invoke y = .ok y' ∧ t.map (.integer .u32 n) = .ok d ∧
      Near l t.outputMetric x' y' d := by
  rw [← h.inputMetric] at near
  obtain ⟨x', y', runX, runY, near'⟩ := h.stable_run x y _ _ hx hy near (h.boundAt n)
  exact ⟨x', y', _, (invoke_of_member hx).trans runX, (invoke_of_member hy).trans runY, h.map n,
    near'⟩

/-- Two datasets that differ in one record, passed on and clamped. -/
theorem outputs_near_clamped :
    letI dataset (xs : List Int) : Value :=
      .vector (.numeric (.integer .i32)) (xs.map (Bounded.clamp .i32))
    letI one : Value := .integer .u32 (Bounded.clamp .u32 1)
    ∃ clamped t, Transformation.clamp (.numeric (.integer .i32)) (Bounded.clamp .i32 0)
        (Bounded.clamp .i32 5) = .ok clamped ∧
      clamped.chain (Transformation.identity (.numeric (.integer .i32))) = .ok t ∧
      ∃ x y d, t.invoke (dataset [3, -1]) = .ok x ∧ t.invoke (dataset [7, -1, 3]) = .ok y ∧
        t.map one = .ok d ∧ Near .numeric t.outputMetric x y d := by
  obtain ⟨clamped, t, hc, ht, domain⟩ : ∃ clamped t,
      Transformation.clamp (.numeric (.integer .i32)) (Bounded.clamp .i32 0)
        (Bounded.clamp .i32 5) = .ok clamped ∧
      clamped.chain (Transformation.identity (.numeric (.integer .i32))) = .ok t ∧
      t.inputDomain = .vector (.all (.primitive (.numeric (.integer .i32)))) :=
    ⟨_, _, rfl, rfl, rfl⟩
  exact ⟨clamped, t, hc, ht,
    RecordWise.outputs_near (.chain (.clamp hc) (.identity _) ht) .numeric
      (by rw [domain]; decide) (by rw [domain]; decide) (.records (by decide))⟩

end RecordWise

end Transformation

end PrivateRelease
