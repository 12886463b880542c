import Mathlib.Algebra.BigOperators.Group.Multiset.Basic
import Mathlib.Algebra.Order.BigOperators.Group.Multiset
import Mathlib.Data.Multiset.UnionInter
import PrivateRelease.Proofs.Mechanism.Ascending
import PrivateRelease.Proofs.Mechanism.Stability
import PrivateRelease.Proofs.Number.Roundoff

/-!
# Stability of sums and means

The maps of sums and means give the stability that these have on real numbers, where the order of
records does not matter. The functions add from left to right and round every total. Two outputs are
as close as the map says only up to the roundings of the two runs and of the map itself: a dataset
in another order can have another sum.
-/

namespace PrivateRelease

/-! ## Sums over multisets -/

section Multisets

variable {α : Type} {f : α → ℚ} {xs ys : Multiset α}

theorem abs_sum_map_le {most : ℚ} (h : ∀ x ∈ xs, |f x| ≤ most) :
    |(xs.map f).sum| ≤ xs.card * most := by
  induction xs using Multiset.induction with
  | empty => simp
  | cons x xs ih =>
    obtain ⟨head, tail⟩ := Multiset.forall_mem_cons.mp h
    rw [Multiset.map_cons, Multiset.sum_cons, Multiset.card_cons, Nat.cast_succ, add_one_mul,
      add_comm]
    exact (abs_add_le _ _).trans (add_le_add (ih tail) head)

variable [DecidableEq α]

/-- What two multisets have in common does not matter for the difference of their sums. -/
theorem sum_map_sub_sum_map (f : α → ℚ) (xs ys : Multiset α) :
    (xs.map f).sum - (ys.map f).sum = ((xs - ys).map f).sum - ((ys - xs).map f).sum := by
  have left := congrArg (fun s => (s.map f).sum) (Multiset.sub_add_inter xs ys)
  have right := congrArg (fun s => (s.map f).sum) (Multiset.sub_add_inter ys xs)
  simp only [Multiset.map_add, Multiset.sum_add] at left right
  rw [Multiset.inter_comm] at right
  linarith

/-- One record more or less moves a sum by what a record can be. -/
theorem abs_sum_map_sub_le {most : ℚ} (hx : ∀ x ∈ xs, |f x| ≤ most) (hy : ∀ y ∈ ys, |f y| ≤ most) :
    |(xs.map f).sum - (ys.map f).sum| ≤ recordsApart xs ys * most := by
  have left := abs_sum_map_le fun x hm => hx x (Multiset.mem_of_le (Multiset.sub_le_self xs ys) hm)
  have right := abs_sum_map_le fun y hm => hy y (Multiset.mem_of_le (Multiset.sub_le_self ys xs) hm)
  rw [sum_map_sub_sum_map, recordsApart, Nat.cast_add, add_mul]
  exact (abs_sub _ _).trans (add_le_add left right)

/-- Between datasets of one size a replaced record, which sets them two records apart, moves a sum by
the range of the records. -/
theorem two_mul_abs_sum_map_sub_le {least most : ℚ} (hx : ∀ x ∈ xs, least ≤ f x ∧ f x ≤ most)
    (hy : ∀ y ∈ ys, least ≤ f y ∧ f y ≤ most) (size : xs.card = ys.card) :
    2 * |(xs.map f).sum - (ys.map f).sum| ≤ recordsApart xs ys * (most - least) := by
  -- Sums of one size differ as those of the distances to the middle do.
  let middle := (least + most) / 2
  have centred : ∀ x, least ≤ f x ∧ f x ≤ most → |f x - middle| ≤ (most - least) / 2 := by
    intro x ⟨below, above⟩
    rw [abs_le]
    constructor <;> simp only [middle] <;> linarith
  have shift : ∀ s : Multiset α,
      (s.map fun x => f x - middle).sum = (s.map f).sum - s.card * middle := by
    intro s
    rw [Multiset.sum_map_sub, Multiset.map_const', Multiset.sum_replicate, nsmul_eq_mul]
  have apart := abs_sum_map_sub_le (fun x hm => centred x (hx x hm)) fun y hm => centred y (hy y hm)
  rw [shift, shift, size, sub_sub_sub_cancel_right] at apart
  linarith

theorem card_cons_sub_cons_le (a b : α) (xs ys : Multiset α) :
    (a ::ₘ xs - b ::ₘ ys).card ≤ (xs - ys).card + 1 := by
  have cover : a ::ₘ xs ≤ a ::ₘ (xs - ys) + b ::ₘ ys := by
    rw [Multiset.cons_add, Multiset.add_cons]
    exact Multiset.cons_le_cons a (Multiset.le_sub_add.trans (Multiset.le_cons_self _ b))
  have below := Multiset.card_le_card (Multiset.sub_le_iff_le_add.mpr cover)
  rwa [Multiset.card_cons] at below

/-- Two records at one place set multisets two records apart, unless they are the same. -/
theorem recordsApart_cons_le (a b : α) (xs ys : Multiset α) :
    recordsApart (a ::ₘ xs) (b ::ₘ ys) ≤ recordsApart xs ys + if a = b then 0 else 2 := by
  unfold recordsApart
  by_cases same : a = b
  · subst same
    rw [if_pos rfl, Multiset.sub_cons, Multiset.sub_cons, Multiset.erase_cons_head,
      Multiset.erase_cons_head, Nat.add_zero]
  · have left := card_cons_sub_cons_le a b xs ys
    have right := card_cons_sub_cons_le b a ys xs
    rw [if_neg same]
    omega

end Multisets

/-! ## Neighbouring datasets -/

namespace Likeness

variable (l : Likeness)

/-- The number of places where two datasets have different records. -/
def placesApart {p : Primitive} (xs ys : List p.Carrier) : Nat :=
  (xs.zip ys).countP fun r => decide (l.canonical r.1 ≠ l.canonical r.2)

theorem records_cons {p : Primitive} (x : p.Carrier) (xs : List p.Carrier) :
    l.records (x :: xs) = l.canonical x ::ₘ l.records xs := by
  rw [records, ← Multiset.cons_coe, Multiset.map_cons]
  rfl

/-- Records that are the same have one value. -/
theorem toRat_canonical {p : Precision} (x : Binary p) :
    Binary.toRat (l.canonical (p := .numeric (.float p)) x) = x.toRat := by
  cases l with
  | represented => rfl
  | numeric =>
    show Binary.toRat (if Binary.isZero x then Binary.zero false else x) = x.toRat
    split
    next zero => rw [Binary.toRat_zero, Binary.toRat_of_isZero zero]
    · rfl

/-- What holds of the values of all records holds of those of the records that stand for them. -/
theorem forall_records {P : ℚ → Prop} {p : Precision} {xs : List (Binary p)}
    (h : ∀ x ∈ xs, P x.toRat) :
    ∀ r ∈ l.records (p := .numeric (.float p)) xs, P (Binary.toRat (p := p) r) := by
  intro r hr
  obtain ⟨x, hx, rfl⟩ := Multiset.mem_map.mp hr
  rw [l.toRat_canonical]
  exact h x hx

/-- A place with different records is a record of one dataset and a record of the other. -/
theorem recordsApart_le_placesApart {p : Primitive} {xs ys : List p.Carrier}
    (size : xs.length = ys.length) :
    recordsApart (l.records xs) (l.records ys) ≤ 2 * l.placesApart xs ys := by
  induction xs generalizing ys with
  | nil =>
    cases List.length_eq_zero_iff.mp size.symm
    exact Nat.zero_le _
  | cons x xs ih =>
    cases ys with
    | nil => cases size
    | cons y ys =>
      have rest := ih (Nat.succ.inj size)
      have step :=
        recordsApart_cons_le (l.canonical x) (l.canonical y) (l.records xs) (l.records ys)
      rw [l.records_cons, l.records_cons, placesApart, List.zip_cons_cons, List.countP_cons]
      unfold placesApart at rest
      by_cases same : l.canonical x = l.canonical y
      · rw [if_pos same] at step
        rw [if_neg (by simpa using same)]
        omega
      · rw [if_neg same] at step
        rw [if_pos (by simpa using same)]
        omega

/-- The values of a dataset sum up to one value in every order. -/
theorem sum_records {p : Precision} (xs : List (Binary p)) :
    ((l.records (p := .numeric (.float p)) xs).map Binary.toRat).sum =
      (xs.map Binary.toRat).sum := by
  rw [records, Multiset.map_map, Multiset.map_coe, Multiset.sum_coe]
  exact congrArg List.sum (List.map_congr_left fun x _ => l.toRat_canonical x)

end Likeness

/-- Datasets within `n` records of each other: as multisets by the symmetric distance, of one size
and place by place by the Hamming distance. -/
inductive Neighbours (l : Likeness) {p : Primitive} (xs ys : List p.Carrier) (n : Bounded .u32) :
    Metric → Prop where
  | symmetric : recordsApart (l.records xs) (l.records ys) ≤ n.val →
      Neighbours l xs ys n .symmetricDistance
  | hamming : xs.length = ys.length → l.placesApart xs ys ≤ n.val →
      Neighbours l xs ys n .hammingDistance

/-- A replaced record sets two datasets two records apart, whatever the metric counts it as. -/
theorem Neighbours.recordsApart_le {l : Likeness} {p : Primitive} {xs ys : List p.Carrier}
    {n : Bounded .u32} {m : Metric} {k : Nat} (h : Neighbours l xs ys n m)
    (one : m.oneRecord? = some k) :
    (k * recordsApart (l.records xs) (l.records ys) : Int) ≤ 2 * n.val := by
  cases h with
  | symmetric apart =>
    cases one
    omega
  | hamming size apart =>
    cases one
    have := l.recordsApart_le_placesApart size
    omega

/-- A dataset in another order is at no distance. -/
theorem Neighbours.of_perm {l : Likeness} {p : Primitive} {xs ys : List p.Carrier} (h : xs.Perm ys)
    (n : Bounded .u32) : Neighbours l xs ys n .symmetricDistance := by
  have same : l.records xs = l.records ys :=
    congrArg (Multiset.map l.canonical) (Multiset.coe_eq_coe.mpr h)
  refine .symmetric ?_
  rw [same, recordsApart, tsub_self, Multiset.card_zero]
  exact n.least_le

theorem Bounded.exists_count (n : Bounded .u32) : ∃ c : Nat, n.val = c ∧ c < 2 ^ 53 ∧
    (Binary.ofInt n.val : Binary .double) = Binary.ofNat c := by
  have small : n.val ≤ 2 ^ 32 - 1 := n.le_greatest
  obtain ⟨c, hc⟩ := Int.eq_ofNat_of_zero_le n.least_le
  exact ⟨c, hc, by omega, congrArg Binary.ofInt hc⟩

namespace Transformation

open Binary (one toRat sumErrors sumTotals)

variable {p : Precision} {lower upper : Binary p} {t : Transformation} {l : Likeness}
  {xs ys : List (Binary p)} {n : Bounded .u32}

/-- Invoked at two datasets and mapped at `n`, the transformation has results, and `r` holds of
their values where they are finite. -/
def Related (t : Transformation) (xs ys : List (Binary p)) (n : Bounded .u32)
    (r : ℚ → ℚ → ℚ → Prop) : Prop :=
  ∃ y y' s : Binary p, t.invoke (.vector (.numeric (.float p)) xs) = .ok (.float p y) ∧
    t.invoke (.vector (.numeric (.float p)) ys) = .ok (.float p y') ∧
    t.map (.integer .u32 n) = .ok (.float p s) ∧
    (y.isFinite → y'.isFinite → s.isFinite → r y.toRat y'.toRat s.toRat)

theorem map_of_count {f : Binary .double → Binary .double}
    (metric : t.inputMetric.distance = .integer .u32)
    (h : ∀ d, t.stability d = records d >>= fun x => .ok (.upward p (f x))) (n : Bounded .u32) :
    t.map (.integer .u32 n) = .ok (.upward p (f (.ofInt n.val))) := by
  have typed : (Value.integer .u32 n).type = t.inputMetric.distanceType := by
    rw [Metric.distanceType, metric]
    rfl
  rw [map_of_type typed, Transformation.boundAt, Distance.validate_count, ok_bind, h]
  rfl

/-! ## Sums -/

theorem boundedSum_invoke (h : boundedSum p lower upper = .ok t)
    (hx : t.inputDomain.member (.vector (.numeric (.float p)) xs)) :
    t.invoke (.vector (.numeric (.float p)) xs) = .ok (.float p (Binary.sum xs)) := by
  obtain ⟨_, ⟨⟩, _, run⟩ := boundedSum_run h hx
  exact (invoke_of_member hx).trans run

/-- A magnitude that is finite is one of finite bounds. -/
theorem magnitude_bounds (ordered : lower.le upper) (h : (magnitude lower upper).isFinite) :
    lower.isFinite ∧ upper.isFinite ∧ |lower.toRat| ≤ (magnitude lower upper).toRat ∧
      |upper.toRat| ≤ (magnitude lower upper).toRat := by
  have bound : ∀ {x : Binary p}, x.isNaN = false →
      (x.convert : Binary .double).abs.le (magnitude lower upper) →
        x.isFinite ∧ |x.toRat| ≤ (magnitude lower upper).toRat := by
    intro x number below
    have finite := Binary.isFinite_of_abs_le ((Binary.isNaN_convert x).trans number) below h
    have value := (Binary.convert_double (Binary.isFinite_convert finite)).2
    refine ⟨Binary.isFinite_convert finite, ?_⟩
    rw [← value, ← Binary.toRat_abs]
    exact Binary.toRat_le below ((Binary.isFinite_abs _).trans finite) h
  have numbers := Binary.isNaN_of_le ordered
  have wide : ∀ {x : Binary p}, x.isNaN = false → (x.convert : Binary .double).abs.isNaN = false :=
    fun number => (Binary.isNaN_abs _).trans ((Binary.isNaN_convert _).trans number)
  obtain ⟨left, right⟩ := Binary.le_max (wide numbers.1) (wide numbers.2)
  obtain ⟨hl, below⟩ := bound numbers.1 left
  obtain ⟨hu, above⟩ := bound numbers.2 right
  exact ⟨hl, hu, below, above⟩

/-- What lies between bounds of a finite magnitude is within it. -/
theorem abs_toRat_le_magnitude (ordered : lower.le upper) (h : (magnitude lower upper).isFinite)
    (within : ∀ x ∈ xs, lower.le x ∧ x.le upper) :
    ∀ x ∈ xs, |x.toRat| ≤ (magnitude lower upper).toRat := by
  obtain ⟨hl, hu, low, high⟩ := magnitude_bounds ordered h
  intro x hx
  obtain ⟨_, above, below⟩ := Binary.exact_between hl hu (within x hx).1 (within x hx).2
  exact abs_le.mpr ⟨(abs_le.mp low).1.trans above, below.trans (abs_le.mp high).2⟩

/-- Sums of datasets `c` records apart are within what the map makes of `c`, and their roundings. -/
theorem sums_within {c : Nat} (small : c < 2 ^ 53) (ordered : lower.le upper)
    (within : ∀ x ∈ xs, lower.le x ∧ x.le upper) (within' : ∀ y ∈ ys, lower.le y ∧ y.le upper)
    (apart : recordsApart (l.records (p := .numeric (.float p)) xs) (l.records ys) ≤ c)
    (finite : ((Binary.ofNat c * magnitude lower upper).roundUp p).isFinite) :
    |(Binary.sum xs).toRat - (Binary.sum ys).toRat| ≤
      (1 + Precision.double.roundoff) * ((Binary.ofNat c * magnitude lower upper).roundUp p).toRat +
        (sumErrors xs + sumErrors ys) := by
  obtain ⟨r, hr⟩ := exists_standsAt_magnitude lower upper
  obtain ⟨most, product⟩ := Binary.ofNat_mul_le_roundUp small hr finite
  have exact : |(xs.map toRat).sum - (ys.map toRat).sum| ≤ c * (magnitude lower upper).toRat := by
    have records := abs_toRat_le_magnitude ordered most within
    have records' := abs_toRat_le_magnitude ordered most within'
    rw [← l.sum_records xs, ← l.sum_records ys]
    refine (abs_sum_map_sub_le (l.forall_records (P := fun v => |v| ≤ _) records)
      (l.forall_records (P := fun v => |v| ≤ _) records')).trans ?_
    exact mul_le_mul_of_nonneg_right (Nat.cast_le.mpr apart) hr.toRat_nonneg
  have error := abs_le.mp (Binary.sum_error xs)
  have error' := abs_le.mp (Binary.sum_error ys)
  have bounds := abs_le.mp (exact.trans product)
  rw [abs_le]
  constructor <;> linarith only [error.1, error.2, error'.1, error'.2, bounds.1, bounds.2]

theorem roundings_le (hx : (Binary.sum xs).isFinite) (hy : (Binary.sum ys).isFinite) :
    sumErrors xs + sumErrors ys ≤ p.roundoff * (sumTotals xs + sumTotals ys) := by
  rw [mul_add]
  exact add_le_add (Binary.sumErrors_le hx) (Binary.sumErrors_le hy)

theorem boundedSum_within (h : boundedSum p lower upper = .ok t)
    (hx : t.inputDomain.member (.vector (.numeric (.float p)) xs))
    (hy : t.inputDomain.member (.vector (.numeric (.float p)) ys))
    (near : Neighbours (p := .numeric (.float p)) l xs ys n t.inputMetric) :
    t.Related xs ys n fun y y' s =>
      |y - y'| ≤ (1 + Precision.double.roundoff) * s + (sumErrors xs + sumErrors ys) ∧
      sumErrors xs + sumErrors ys ≤ p.roundoff * (sumTotals xs + sumTotals ys) := by
  obtain ⟨_, ⟨⟩, within, run⟩ := boundedSum_run h hx
  obtain ⟨_, ⟨⟩, within', run'⟩ := boundedSum_run h hy
  obtain ⟨bounded, hb, rfl⟩ := boundedSum_eq_ok h
  obtain ⟨ordered, _⟩ := between_eq_ok (q := .float p) hb
  refine ⟨_, _, _, (invoke_of_member hx).trans run, (invoke_of_member hy).trans run',
    map_of_count rfl (fun d => rfl) n, fun finite finite' hs => ⟨?_, roundings_le finite finite'⟩⟩
  obtain ⟨c, hc, small, whole⟩ := n.exists_count
  cases near with
  | symmetric apart =>
    rw [hc] at apart
    rw [whole] at hs ⊢
    exact sums_within small (Binary.le_of_numeric ordered) within within'
      (l := l) (by exact_mod_cast apart) hs

/-! ## Means -/

/-- Sums of datasets of one size, by how much one record moves them. -/
theorem exact_sums_of_size (hl : lower.isFinite) (hu : upper.isFinite)
    (within : ∀ x ∈ xs, lower.le x ∧ x.le upper) (within' : ∀ y ∈ ys, lower.le y ∧ y.le upper)
    (size : xs.length = ys.length) :
    2 * |(xs.map toRat).sum - (ys.map toRat).sum| ≤
      recordsApart (l.records (p := .numeric (.float p)) xs) (l.records ys) *
        (upper.toRat - lower.toRat) := by
  have records : ∀ {zs : List (Binary p)}, (∀ z ∈ zs, lower.le z ∧ z.le upper) →
      ∀ z ∈ zs, lower.toRat ≤ z.toRat ∧ z.toRat ≤ upper.toRat := fun between z hz =>
    (Binary.exact_between hl hu (between z hz).1 (between z hz).2).2
  rw [← l.sum_records xs, ← l.sum_records ys]
  refine two_mul_abs_sum_map_sub_le
    (l.forall_records (P := fun v => _ ≤ v ∧ v ≤ _) (records within))
    (l.forall_records (P := fun v => _ ≤ v ∧ v ≤ _) (records within')) ?_
  rw [l.card_records (p := .numeric (.float p)) xs, size]
  exact (l.card_records (p := .numeric (.float p)) ys).symm

/-- A range that is finite is one of finite bounds, and rounded once. -/
theorem range_bounds (ordered : lower.le upper)
    (h : (upper.convert - lower.convert : Binary .double).isFinite) :
    lower.isFinite ∧ upper.isFinite ∧ upper.toRat - lower.toRat ≤
      (1 + Precision.double.roundoff) * (upper.convert - lower.convert : Binary .double).toRat := by
  obtain ⟨hu, hl, error⟩ := Binary.sub_error h
  obtain ⟨r, hr⟩ := Binary.exists_standsAt_sub (Binary.le_convert (q := .double) ordered)
  have hl := Binary.isFinite_convert hl
  have hu := Binary.isFinite_convert hu
  rw [(Binary.convert_double hl).2, (Binary.convert_double hu).2] at error
  exact ⟨hl, hu, Binary.le_of_error hr.toRat_nonneg error⟩

/-- The roundings of a mean's map and of its size, taken together. -/
theorem map_roundings_le (p : Precision) {v : ℚ} (nonneg : 0 ≤ v) :
    (1 + Precision.double.roundoff) ^ 2 * (1 + p.roundoff) *
        ((1 + Precision.double.roundoff) * v + Precision.double.tiny) ≤
      (1 + 5 * p.roundoff) * v + 2 * p.tiny := by
  have four : (1 + Precision.double.roundoff) ^ 3 * (1 + p.roundoff) ≤ 1 + 5 * p.roundoff := by
    cases p <;> norm_num [Precision.roundoff, Precision.binade, Precision.fractionBits]
  have three : (1 + Precision.double.roundoff) ^ 2 * (1 + p.roundoff) ≤ 2 := by
    cases p <;> norm_num [Precision.roundoff, Precision.binade, Precision.fractionBits]
  calc (1 + Precision.double.roundoff) ^ 2 * (1 + p.roundoff) *
        ((1 + Precision.double.roundoff) * v + Precision.double.tiny)
      = (1 + Precision.double.roundoff) ^ 3 * (1 + p.roundoff) * v +
          (1 + Precision.double.roundoff) ^ 2 * (1 + p.roundoff) * Precision.double.tiny := by ring
    _ ≤ (1 + 5 * p.roundoff) * v + 2 * p.tiny :=
        add_le_add (mul_le_mul_of_nonneg_right four nonneg)
          (mul_le_mul three p.double_tiny_le Precision.double.tiny_nonneg zero_le_two)

/-- The exact means of datasets of `m` records are within what the map makes of their distance, and
its roundings. -/
theorem exact_means_within {c k m : Nat} {s : Binary p} (small : c < 2 ^ 53)
    (hk : k = 1 ∨ k = 2) (pos : 0 < m) (word : m < 2 ^ 64) (ordered : lower.le upper)
    (within : ∀ x ∈ xs, lower.le x ∧ x.le upper) (within' : ∀ y ∈ ys, lower.le y ∧ y.le upper)
    (size : xs.length = ys.length)
    (apart : k * recordsApart (l.records (p := .numeric (.float p)) xs) (l.records ys) ≤ 2 * c)
    (made : (Binary.ofNat c * (upper.convert - lower.convert : Binary .double) /
      (Binary.ofNat k * Binary.ofNat m)).roundUp p = s) (hs : s.isFinite) :
    |(xs.map toRat).sum / ((Binary.ofNat m : Binary .double).convert : Binary p).toRat -
      (ys.map toRat).sum / ((Binary.ofNat m : Binary .double).convert : Binary p).toRat| ≤
        (1 + 5 * p.roundoff) * s.toRat + 2 * p.tiny := by
  obtain ⟨r, hr⟩ := Binary.exists_standsAt_sub (Binary.le_convert (q := .double) ordered)
  obtain ⟨range, nonneg, quotient⟩ := Binary.ofNat_mul_div_le_roundUp small hr hk pos word made hs
  obtain ⟨hl, hu, width⟩ := range_bounds ordered range
  obtain ⟨finite, one⟩ := Binary.one_le_size p pos word
  have number := Binary.le_of_error (zero_le_one.trans one) (Binary.convert_error finite one)
  have sums := exact_sums_of_size (l := l) hl hu within within' size
  have wide : 0 ≤ upper.toRat - lower.toRat := sub_nonneg.mpr (Binary.toRat_le ordered hl hu)
  have records : (k : ℚ) * recordsApart (l.records (p := .numeric (.float p)) xs) (l.records ys) ≤
      2 * c := by exact_mod_cast apart
  have factor : (0 : ℚ) < k := by rcases hk with rfl | rfl <;> norm_num
  have roundoff := Precision.double.one_add_roundoff_nonneg
  have moved : k * |(xs.map toRat).sum - (ys.map toRat).sum| ≤
      k * ((1 + Precision.double.roundoff) ^ 2 *
        ((1 + Precision.double.roundoff) * s.toRat + Precision.double.tiny) *
          (Binary.ofNat m : Binary .double).toRat) := by
    have left := mul_le_mul_of_nonneg_left sums factor.le
    have counted := mul_le_mul_of_nonneg_right records wide
    have count : (0 : ℚ) ≤ c := Nat.cast_nonneg c
    have rounded := mul_le_mul_of_nonneg_left width count
    have mapped := mul_le_mul_of_nonneg_left quotient roundoff
    linarith only [left, counted, rounded, mapped]
  have positive := zero_lt_one.trans_le one
  rw [← sub_div, abs_div, abs_of_pos positive, div_le_iff₀ positive]
  refine (le_of_mul_le_mul_left moved factor).trans ?_
  have bound : 0 ≤ (1 + Precision.double.roundoff) ^ 2 *
      ((1 + Precision.double.roundoff) * s.toRat + Precision.double.tiny) :=
    mul_nonneg (pow_nonneg roundoff 2)
      (add_nonneg (mul_nonneg roundoff nonneg) Precision.double.tiny_nonneg)
  refine (mul_le_mul_of_nonneg_left number bound).trans ?_
  rw [← mul_assoc, mul_right_comm _ _ (1 + p.roundoff)]
  exact mul_le_mul_of_nonneg_right (map_roundings_le p nonneg) positive.le

theorem oneRecord_eq {m : Metric} {k : Nat} (h : m.oneRecord? = some k) : k = 1 ∨ k = 2 := by
  cases m <;> cases h
  · exact .inr rfl
  · exact .inl rfl

/-- A mean is the exact one up to the additions, the division and the size. -/
theorem mean_error {size : Binary p} (finite : size.isFinite) (one : 1 ≤ size.toRat)
    (h : (Binary.sum xs / size).isFinite) : (Binary.sum xs).isFinite ∧
      |(Binary.sum xs / size).toRat - (xs.map toRat).sum / size.toRat| ≤
        sumErrors xs / size.toRat + (p.roundoff * |(Binary.sum xs / size).toRat| + p.tiny) := by
  have pos : 0 < size.toRat := zero_lt_one.trans_le one
  have nonzero : size.isZero = false := by
    by_contra zero
    rw [Binary.toRat_of_isZero (Bool.not_eq_false _ ▸ zero)] at pos
    exact lt_irrefl _ pos
  obtain ⟨total, division⟩ := Binary.div_error finite nonzero h
  refine ⟨total, ?_⟩
  have sums : |(Binary.sum xs).toRat / size.toRat - (xs.map toRat).sum / size.toRat| ≤
      sumErrors xs / size.toRat := by
    rw [← sub_div, abs_div, abs_of_pos pos]
    exact div_le_div_of_nonneg_right (Binary.sum_error xs) pos.le
  have split := abs_sub_le (Binary.sum xs / size).toRat ((Binary.sum xs).toRat / size.toRat)
    ((xs.map toRat).sum / size.toRat)
  linarith

theorem boundedMean_within {m : Nat} {inputMetric outputMetric : Metric} (word : m < 2 ^ 64)
    (h : boundedMean p lower upper m inputMetric outputMetric = .ok t)
    (hx : t.inputDomain.member (.vector (.numeric (.float p)) xs))
    (hy : t.inputDomain.member (.vector (.numeric (.float p)) ys))
    (near : Neighbours (p := .numeric (.float p)) l xs ys n t.inputMetric) :
    t.Related xs ys n fun y y' s =>
      |y - y'| ≤ (1 + 5 * p.roundoff) * s +
        (sumErrors xs + sumErrors ys) /
          ((Binary.ofNat m : Binary .double).convert : Binary p).toRat +
        (p.roundoff * (|y| + |y'|) + 4 * p.tiny) ∧
      sumErrors xs + sumErrors ys ≤ p.roundoff * (sumTotals xs + sumTotals ys) := by
  obtain ⟨_, ⟨⟩, size, within, run⟩ := boundedMean_run h hx
  obtain ⟨_, ⟨⟩, size', within', run'⟩ := boundedMean_run h hy
  obtain ⟨hn, _, k, bounded, ho, hb, rfl⟩ := boundedMean_eq_ok h
  obtain ⟨ordered, _⟩ := between_eq_ok (q := .float p) hb
  refine ⟨_, _, _, (invoke_of_member hx).trans run, (invoke_of_member hy).trans run',
    map_of_count (f := fun d => d * (upper.convert - lower.convert) /
      (Binary.ofNat k * Binary.ofNat m)) (Metric.distance_of_oneRecord? ho) (fun d => rfl) n, ?_⟩
  intro hy hy' hs
  obtain ⟨c, hc, small, whole⟩ := n.exists_count
  have apart := near.recordsApart_le ho
  rw [hc] at apart
  rw [whole] at hs ⊢
  have pos := Nat.pos_of_ne_zero hn
  have exact := exact_means_within small (oneRecord_eq ho) pos word
    (Binary.le_of_numeric ordered) within within' (size.trans size'.symm)
    (by exact_mod_cast apart) rfl hs
  obtain ⟨finite, one⟩ := Binary.one_le_size p pos word
  obtain ⟨total, error⟩ := mean_error finite one hy
  obtain ⟨total', error'⟩ := mean_error finite one hy'
  refine ⟨?_, roundings_le total total'⟩
  rw [add_div]
  have bounds := abs_le.mp exact
  have left := abs_le.mp error
  have right := abs_le.mp error'
  rw [abs_le]
  constructor <;> linarith only [bounds.1, bounds.2, left.1, left.2, right.1, right.2]

/-! ## Both -/

/-- Sums and means of datasets within `n` records of each other are within what the map makes of `n`,
up to the roundings of the map and of the two runs. The additions round away a fraction of the
running totals, whatever the distance is. -/
theorem aggregates_within (hx : t.inputDomain.member (.vector (.numeric (.float p)) xs))
    (hy : t.inputDomain.member (.vector (.numeric (.float p)) ys))
    (near : Neighbours (p := .numeric (.float p)) l xs ys n t.inputMetric) :
    (boundedSum p lower upper = .ok t → t.Related xs ys n fun y y' s =>
      |y - y'| ≤ (1 + Precision.double.roundoff) * s + (sumErrors xs + sumErrors ys) ∧
      sumErrors xs + sumErrors ys ≤ p.roundoff * (sumTotals xs + sumTotals ys)) ∧
    ∀ m inputMetric outputMetric, m < 2 ^ 64 →
      boundedMean p lower upper m inputMetric outputMetric = .ok t → t.Related xs ys n fun y y' s =>
        |y - y'| ≤ (1 + 5 * p.roundoff) * s +
          (sumErrors xs + sumErrors ys) /
            ((Binary.ofNat m : Binary .double).convert : Binary p).toRat +
          (p.roundoff * (|y| + |y'|) + 4 * p.tiny) ∧
        sumErrors xs + sumErrors ys ≤ p.roundoff * (sumTotals xs + sumTotals ys) :=
  ⟨fun h => boundedSum_within h hx hy near,
    fun _ _ _ word h => boundedMean_within word h hx hy near⟩

/-- One record more in a sum, one record replaced in a mean. -/
theorem aggregates_within_one :
    letI zero : Binary .single := .zero false
    letI least : Binary .single := .number false 1 (by decide)
    letI one : Bounded .u32 := Bounded.clamp .u32 1
    ∃ t t', boundedSum .single zero least = .ok t ∧
      boundedMean .single zero least 1 .hammingDistance (.l2Sensitivity (.float .single)) = .ok t' ∧
      (t.Related [least] [zero, least] one fun y y' s =>
        |y - y'| ≤ (1 + Precision.double.roundoff) * s +
          (sumErrors [least] + sumErrors [zero, least]) ∧
        sumErrors [least] + sumErrors [zero, least] ≤
          Precision.single.roundoff * (sumTotals [least] + sumTotals [zero, least])) ∧
      t'.Related [least] [zero] one fun y y' s =>
        |y - y'| ≤ (1 + 5 * Precision.single.roundoff) * s +
          (sumErrors [least] + sumErrors [zero]) /
            ((Binary.ofNat 1 : Binary .double).convert : Binary .single).toRat +
          (Precision.single.roundoff * (|y| + |y'|) + 4 * Precision.single.tiny) ∧
        sumErrors [least] + sumErrors [zero] ≤
          Precision.single.roundoff * (sumTotals [least] + sumTotals [zero]) := by
  obtain ⟨t, made, domain, metric⟩ : ∃ t, boundedSum .single (.zero false)
      (.number false 1 (by decide)) = .ok t ∧
      t.inputDomain = .vector (.interval (.float .single) (.zero false)
        (.number false 1 (by decide)) (by decide)) ∧
      t.inputMetric = .symmetricDistance := ⟨_, rfl, rfl, rfl⟩
  obtain ⟨t', made', domain', metric'⟩ : ∃ t', boundedMean .single (.zero false)
      (.number false 1 (by decide)) 1 .hammingDistance (.l2Sensitivity (.float .single)) = .ok t' ∧
      t'.inputDomain = .sized (.vector (.interval (.float .single) (.zero false)
        (.number false 1 (by decide)) (by decide))) 1 ∧
      t'.inputMetric = .hammingDistance := ⟨_, rfl, rfl, rfl⟩
  refine ⟨t, t', made, made', ?_, ?_⟩
  · exact (aggregates_within (l := .numeric) (by rw [domain]; decide) (by rw [domain]; decide)
      (metric ▸ .symmetric (by decide))).1 made
  · exact (aggregates_within (l := .numeric) (by rw [domain']; decide) (by rw [domain']; decide)
      (metric' ▸ .hamming rfl (by decide))).2 _ _ _ (by decide) made'

/-- The double of rank `1076 * binade`, beyond which one is lost in an addition. -/
theorem ofInt_large (s : Bool) : (Binary.ofInt (if s then -2 ^ 53 else 2 ^ 53) : Binary .double) =
    .number s (1076 * Precision.double.binade) (by decide) := by
  cases s <;> decide +kernel

/-- The sum of doubles in another order is another sum, though no record has changed and the map has
nothing for that. -/
theorem boundedSum_reordered_apart :
    letI none : Bounded .u32 := Bounded.clamp .u32 0
    ∃ t, boundedSum .double (.ofInt (-2 ^ 53)) (.ofInt (2 ^ 53)) = .ok t ∧
      ∃ xs ys : List (Binary .double), xs.Perm ys ∧
        t.inputDomain.member (.vector (.numeric (.float .double)) xs) ∧
        t.inputDomain.member (.vector (.numeric (.float .double)) ys) ∧
        (∀ l, Neighbours (p := .numeric (.float .double)) l xs ys none t.inputMetric) ∧
        ∃ y y' s : Binary .double,
          t.invoke (.vector (.numeric (.float .double)) xs) = .ok (.float .double y) ∧
          t.invoke (.vector (.numeric (.float .double)) ys) = .ok (.float .double y') ∧
          t.map (.integer .u32 none) = .ok (.float .double s) ∧
          y.isFinite ∧ y'.isFinite ∧ s.isFinite ∧ s.toRat < |y.toRat - y'.toRat| := by
  have low := ofInt_large true
  have high := ofInt_large false
  rw [if_pos rfl] at low
  rw [if_neg Bool.false_ne_true] at high
  rw [low, high]
  let low : Binary .double := .number true (1076 * Precision.double.binade) (by decide)
  let high : Binary .double := .number false (1076 * Precision.double.binade) (by decide)
  obtain ⟨t, made, domain, metric, stability⟩ : ∃ t, boundedSum .double low high = .ok t ∧
      t.inputDomain = .vector (.interval (.float .double) low high (by decide)) ∧
      t.inputMetric = .symmetricDistance ∧ ∀ d, t.stability d = records d >>= fun x =>
        .ok (.upward .double (x * magnitude low high)) := ⟨_, rfl, rfl, rfl, fun _ => rfl⟩
  have member : ∀ xs : List (Binary .double), xs = [high, one, low] ∨ xs = [high, low, one] →
      t.inputDomain.member (.vector (.numeric (.float .double)) xs) := by
    rw [domain]
    rintro xs (rfl | rfl) <;> decide
  have order : [high, one, low].Perm [high, low, one] := (List.Perm.swap low one []).cons high
  have lost : Binary.sum [high, one, low] = .zero false := by decide +kernel
  have kept : Binary.sum [high, low, one] = one := by decide +kernel
  have nothing : (Binary.ofInt (Bounded.clamp .u32 0).val * magnitude low high).roundUp .double =
      .zero false := by decide +kernel
  have unit : (one : Binary .double).toRat = 1 := by decide +kernel
  refine ⟨t, made, _, _, order, member _ (.inl rfl), member _ (.inr rfl),
    fun l => metric ▸ Neighbours.of_perm order _, .zero false, one, .zero false, ?_, ?_, ?_,
    by decide, by decide, by decide, ?_⟩
  · rw [boundedSum_invoke made (member _ (.inl rfl)), lost]
  · rw [boundedSum_invoke made (member _ (.inr rfl)), kept]
  · rw [map_of_count (congrArg Metric.distance metric) stability, Value.upward, nothing]
  · rw [Binary.toRat_zero, unit]
    norm_num

end Transformation

end PrivateRelease
