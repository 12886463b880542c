import PrivateRelease.Proofs.Mechanism.Ascending
import PrivateRelease.Proofs.Number.MonotoneFunctions

/-!
# Monotonicity of privacy maps

A larger distance costs no less. The loss of each measurement is a formula that rises with the
distance, and each combinator hands the order on. Where a formula is a NaN, a minimum puts a number
in its place, or the case is split off before, as for no concentration at all. Curves are compared
at two deltas at once, the smaller loss at the larger delta: compared with itself, a curve does not
increase.
-/

namespace PrivateRelease

open Distance (Ascends)

/-! ## Deltas -/

namespace Curve

open Binary

variable {c : Curve} {delta e : Binary .double}

theorem lt_of_isProbability (h : isProbability delta) : Binary.lt 0 delta ∧ delta.lt 1 :=
  Bool.and_eq_true_iff.mp h

theorem onSide_of_isProbability (h : isProbability delta) : delta.OnSide false :=
  onSide_of_pos (lt_of_isProbability h).1

theorem isNaN_of_isProbability (h : isProbability delta) : delta.isNaN = false :=
  (onSide_of_isProbability h).isNaN_eq

theorem le_refl_of_isProbability (h : isProbability delta) : delta.le delta :=
  (Binary.Rises.refl (onSide_of_isProbability h)).le

theorem epsilon_eq_ok (h : c.epsilon delta = .ok e) : isProbability delta ∧ c.rule delta = .ok e := by
  unfold epsilon at h
  split at h
  · exact ⟨‹_›, h⟩
  · cases h

end Curve

/-! ## Losses in order -/

/-- The epsilons of `c` at larger deltas are at most those of `c'` at smaller ones. -/
def Curve.Rises (c c' : Curve) : Prop :=
  ∀ delta delta' e e', delta.le delta' → c.epsilon delta' = .ok e →
    c'.epsilon delta = .ok e' → e.Rises e'

namespace Measure

/-- Losses in order, none of them below zero or a NaN. -/
inductive Rises : Measure → Value → Value → Prop where
  | number {p : Precision} {x y : Binary p} : x.Rises y →
      Rises (.maxDivergence p) (.float p x) (.float p y)
  | curve {p : Precision} {c c' : Curve} : c.Rises c' →
      Rises (.smoothedMaxDivergence p) (.curve c) (.curve c')
  | pair {p : Precision} {e d e' d' : Binary p} : e.Rises e' → d.Rises d' →
      Rises (.fixedSmoothedMaxDivergence p) (.tuple [.float p e, .float p d])
        (.tuple [.float p e', .float p d'])

end Measure

namespace CompositionRule

open Binary

theorem toDouble_rises {p : Precision} {l l' : Value} (h : Measure.Rises (.maxDivergence p) l l')
    (x y : Binary .double) (hx : l.toDouble = .ok x) (hy : l'.toDouble = .ok y) : x.Rises y := by
  cases h with
  | number h =>
    cases hx
    cases hy
    exact h.convert

theorem splitPair_rises {p : Precision} {l l' : Value}
    (h : Measure.Rises (.fixedSmoothedMaxDivergence p) l l') (x y : Binary .double × Binary .double)
    (hx : splitPair l = .ok x) (hy : splitPair l' = .ok y) : x.1.Rises y.1 ∧ x.2.Rises y.2 := by
  cases h with
  | pair he hd =>
    cases hx
    cases hy
    exact ⟨he.convert, hd.convert⟩

theorem splitPairs_rises {p : Precision} {losses losses' : List Value}
    (h : List.Forall₂ (Measure.Rises (.fixedSmoothedMaxDivergence p)) losses losses')
    {x y : List (Binary .double) × List (Binary .double)} (hx : splitPairs losses = .ok x)
    (hy : splitPairs losses' = .ok y) :
    List.Forall₂ Binary.Rises x.1 y.1 ∧ List.Forall₂ Binary.Rises x.2 y.2 := by
  obtain ⟨xs, hxs, hx⟩ := bind_eq_ok_iff.mp hx
  obtain ⟨ys, hys, hy⟩ := bind_eq_ok_iff.mp hy
  cases hx
  cases hy
  have pairs := forall₂_of_mapM h (fun _ _ => splitPair_rises) hxs hys
  rw [List.unzip_eq_map, List.unzip_eq_map]
  simp only [List.forall₂_map_left_iff, List.forall₂_map_right_iff]
  exact ⟨pairs.imp fun _ _ => And.left, pairs.imp fun _ _ => And.right⟩

theorem toCurve_rises {p : Precision} {l l' : Value}
    (h : Measure.Rises (.smoothedMaxDivergence p) l l') (c c' : Curve) (hc : l.toCurve = .ok c)
    (hc' : l'.toCurve = .ok c') : c.Rises c' := by
  cases h with
  | curve h =>
    cases hc
    cases hc'
    exact h

theorem sumCurve_rises (p : Precision) {curves curves' : List Curve}
    (h : List.Forall₂ Curve.Rises curves curves') :
    (sumCurve p curves).Rises (sumCurve p curves') := by
  intro delta delta' e e' le he he'
  obtain ⟨valid', he⟩ := Curve.epsilon_eq_ok he
  obtain ⟨valid, he'⟩ := Curve.epsilon_eq_ok he'
  obtain ⟨es, hes, he⟩ := bind_eq_ok_iff.mp he
  obtain ⟨es', hes', he'⟩ := bind_eq_ok_iff.mp he'
  cases he
  cases he'
  rcases Nat.eq_zero_or_pos curves'.length with none | some
  · cases List.length_eq_zero_iff.mp none
    cases h
    cases hes
    cases hes'
    exact .refl (.inr rfl)
  -- An even share of the larger delta is no smaller, and it is a number if it is a probability.
  obtain ⟨k, bound, pos, size⟩ := (one_rises_ofNat some).exists_of_one
  have shares : ∀ c c' : Curve, ∀ y y', c.epsilon (delta' / ofNat curves.length) = .ok y →
      c'.epsilon (delta / ofNat curves'.length) = .ok y' →
      (delta / ofNat curves'.length).le (delta' / ofNat curves.length) := by
    intro c c' y y' hy hy'
    have share' := Curve.isNaN_of_isProbability (Curve.epsilon_eq_ok hy).1
    have share := Curve.isNaN_of_isProbability (Curve.epsilon_eq_ok hy').1
    rw [h.length_eq, size] at share'
    rw [size] at share
    rw [h.length_eq, size]
    have rises : delta.Rises delta' := ⟨Curve.onSide_of_isProbability valid, le⟩
    exact ((rises.under.div pos bound).rises share share').le
  exact .sum (forall₂_of_mapM h (fun c c' rises y y' hy hy' =>
    rises _ _ y y' (shares c c' y y' hy hy') hy hy') hes hes')

theorem composeAdditive_rises {m : Measure} {losses losses' : List Value} {l l' : Value}
    (h : List.Forall₂ m.Rises losses losses') (hl : composeAdditive m losses = .ok l)
    (hl' : composeAdditive m losses' = .ok l') : m.Rises l l' := by
  cases m with
  | maxDivergence p =>
    obtain ⟨xs, hxs, hl⟩ := bind_eq_ok_iff.mp hl
    obtain ⟨ys, hys, hl'⟩ := bind_eq_ok_iff.mp hl'
    cases hl
    cases hl'
    have sums := Binary.Rises.sum (forall₂_of_mapM h (fun _ _ => toDouble_rises) hxs hys)
    exact .number (sums.roundUp p)
  | smoothedMaxDivergence p =>
    obtain ⟨cs, hcs, hl⟩ := bind_eq_ok_iff.mp hl
    obtain ⟨cs', hcs', hl'⟩ := bind_eq_ok_iff.mp hl'
    cases hl
    cases hl'
    exact .curve (sumCurve_rises p (forall₂_of_mapM h (fun _ _ => toCurve_rises) hcs hcs'))
  | fixedSmoothedMaxDivergence p =>
    obtain ⟨x, hx, hl⟩ := bind_eq_ok_iff.mp hl
    obtain ⟨y, hy, hl'⟩ := bind_eq_ok_iff.mp hl'
    cases hl
    cases hl'
    obtain ⟨epsilons, deltas⟩ := splitPairs_rises h hx hy
    exact .pair ((Rises.sum epsilons).roundUp p) ((Rises.sum deltas).roundUp p)

section Advanced

variable [Elementary] (mono : Elementary.IsMonotone)

include mono

/-- The summands of advanced composition rise, also where zero times infinity makes one a NaN. -/
theorem advancedEpsilon_under {deltaPrime : Binary .double}
    (proper : Curve.isProbability deltaPrime) {es es' : List (Binary .double)}
    (h : List.Forall₂ Binary.Rises es es') :
    (advancedEpsilon deltaPrime es).Under (advancedEpsilon deltaPrime es') := by
  obtain ⟨pos, below⟩ := Curve.lt_of_isProbability proper
  have inverse := inverse_rises pos pos (Curve.le_refl_of_isProbability proper) below below
  have log := mono.ln_rises (one_lt_inverse pos below) inverse.le
  have squares : List.Forall₂ Under (es.map fun e => e * e) (es'.map fun e => e * e) := by
    rw [List.forall₂_map_left_iff, List.forall₂_map_right_iff]
    exact h.imp fun _ _ e => e.under.mul e.under
  have drift : List.Forall₂ Under (es.map fun e => e * Elementary.expm1 e)
      (es'.map fun e => e * Elementary.expm1 e) := by
    rw [List.forall₂_map_left_iff, List.forall₂_map_right_iff]
    exact h.imp fun _ _ e => e.under.mul (mono.expm1_rises e).under
  exact (((two_rises.under.mul log.under).mul (Under.sum squares)).sqrt).add (Under.sum drift)

theorem composeAdvanced_rises {deltaPrime : Binary .double}
    (proper : Curve.isProbability deltaPrime) {p : Precision} {losses losses' : List Value}
    {l l' : Value}
    (h : List.Forall₂ (Measure.Rises (.fixedSmoothedMaxDivergence p)) losses losses')
    (hl : composeAdvanced deltaPrime p losses = .ok l)
    (hl' : composeAdvanced deltaPrime p losses' = .ok l') :
    Measure.Rises (.fixedSmoothedMaxDivergence p) l l' := by
  obtain ⟨x, hx, hl⟩ := bind_eq_ok_iff.mp hl
  obtain ⟨y, hy, hl'⟩ := bind_eq_ok_iff.mp hl'
  cases hl
  cases hl'
  obtain ⟨epsilons, deltas⟩ := splitPairs_rises h hx hy
  -- The additive bound is a number, so the minimum is one even if the advanced formula is not.
  have capped := (Rises.sum epsilons).min_left (advancedEpsilon_under mono proper epsilons)
  have spent := (Rises.sum deltas).add (.refl (Curve.onSide_of_isProbability proper))
  exact .pair (capped.roundUp p) (spent.roundUp p)

/-- Every rule is monotone in the losses it composes. -/
theorem compose_rises {rule : CompositionRule} (proper : rule.IsProper) {m : Measure}
    {losses losses' : List Value} {l l' : Value} (h : List.Forall₂ m.Rises losses losses')
    (hl : rule.compose m losses = .ok l) (hl' : rule.compose m losses' = .ok l') :
    m.Rises l l' := by
  cases rule with
  | additive => exact composeAdditive_rises h hl hl'
  | advanced deltaPrime =>
    obtain ⟨_, supported, hl⟩ := bind_eq_ok_iff.mp hl
    obtain ⟨_, _, hl'⟩ := bind_eq_ok_iff.mp hl'
    cases m with
    | fixedSmoothedMaxDivergence p => exact composeAdvanced_rises mono proper h hl hl'
    | maxDivergence p => cases supported
    | smoothedMaxDivergence p => cases supported

end Advanced

end CompositionRule

/-! ## Measurements -/

namespace Measurement

open Binary

/-- Distances in order are mapped to losses in order. -/
def Ascending (m : Measurement) : Prop :=
  ∀ d d' l l', Ascends m.inputMetric.distance d d' → m.boundAt d = .ok l →
    m.boundAt d' = .ok l' → m.outputMeasure.Rises l l'

theorem boundAt_eq_ok {m : Measurement} {d l : Value} (h : m.boundAt d = .ok l) :
    Distance.validate d = .ok () ∧ m.privacy d = .ok l := by
  obtain ⟨_, valid, h⟩ := bind_eq_ok_iff.mp h
  exact ⟨valid, h⟩

theorem exists_of_isScale {scale : Binary .double} (h : Noise.isScale scale) :
    ∃ (k : Nat) (finite : k < Precision.double.infinity),
      0 < k ∧ scale = number false k (Nat.le_of_lt finite) := by
  obtain ⟨finite, pos⟩ := Bool.and_eq_true_iff.mp h
  obtain ⟨k, bound, hk, rfl⟩ := exists_of_pos pos
  have top : k ≠ Precision.double.infinity := by simpa [isFinite] using finite
  exact ⟨k, by omega, hk, rfl⟩

theorem div_scale_rises {scale x y : Binary .double} (h : Noise.isScale scale) (le : x.Rises y) :
    (x / scale).Rises (y / scale) := by
  obtain ⟨k, finite, pos, rfl⟩ := exists_of_isScale h
  exact le.div pos finite

/-- The formulas of noisy releases: an expression in the distance that rises with it. -/
theorem ascending_of_distance {m : Measurement} {f : Binary .double → Value}
    (h : ∀ d, m.privacy d = do return f (← d.toDouble))
    (rises : ∀ x y, x.Rises y → m.outputMeasure.Rises (f x) (f y)) : m.Ascending := by
  intro d d' l l' order hl hl'
  obtain ⟨valid, hl⟩ := boundAt_eq_ok hl
  obtain ⟨_, hl'⟩ := boundAt_eq_ok hl'
  obtain ⟨x, y, hx, hy, le⟩ := order.toDouble valid
  rw [h, hx] at hl
  rw [h, hy] at hl'
  cases hl
  cases hl'
  exact rises x y le

section Kernels

variable [Elementary]

theorem ascending_laplace {p : Precision} {scale : Binary p} {m : Measurement}
    (h : laplace p scale = .ok m) : m.Ascending := by
  obtain ⟨isScale, rfl⟩ := laplace_eq_ok h
  exact ascending_of_distance (fun d => rfl) fun x y le =>
    .number ((div_scale_rises isScale le).roundUp p)

theorem ascending_geometric {k : IntegerType} {scale : Binary .double} {m : Measurement}
    (h : geometric k scale = .ok m) : m.Ascending := by
  obtain ⟨isScale, rfl⟩ := geometric_eq_ok h
  exact ascending_of_distance (fun d => rfl) fun x y le => .number (div_scale_rises isScale le)

variable (mono : Elementary.IsMonotone)

include mono

/-- The epsilon of a concentration other than zero. -/
theorem spread_rises {rho rho' delta delta' : Binary .double} (h : rho.Rises rho')
    (zero : rho.isZero = false) (proper : Curve.isProbability delta)
    (proper' : Curve.isProbability delta') (le : delta.le delta') :
    (rho + 2 * (rho * Elementary.ln (1 / delta')).sqrt).Rises
      (rho' + 2 * (rho' * Elementary.ln (1 / delta)).sqrt) := by
  obtain ⟨pos, below⟩ := Curve.lt_of_isProbability proper
  obtain ⟨pos', below'⟩ := Curve.lt_of_isProbability proper'
  have one := one_lt_inverse pos' below'
  have log := mono.ln_rises one (inverse_rises pos pos' le below' below).le
  have product := h.mul log zero (isZero_of_pos (mono.ln_pos _ one))
  exact h.add product.sqrt.double

/-- A smaller concentration at a larger delta costs no more. A concentration of zero is not
multiplied by the logarithm, which may be infinite. -/
theorem concentratedEpsilon_rises {rho rho' delta delta' : Binary .double} (h : rho.Rises rho')
    (proper : Curve.isProbability delta) (proper' : Curve.isProbability delta')
    (le : delta.le delta') :
    (concentratedEpsilon rho delta').Rises (concentratedEpsilon rho' delta) := by
  unfold concentratedEpsilon
  cases zero : rho.isZero with
  | false =>
    rw [h.isZero_right zero]
    exact spread_rises mono h zero proper proper' le
  | true =>
    have free : (0 : Binary .double).OnSide false := .inr rfl
    have cost : (if rho'.isZero then 0 else
        rho' + 2 * (rho' * Elementary.ln (1 / delta)).sqrt).OnSide false := by
      cases zero' : rho'.isZero with
      | true => exact free
      | false =>
        exact (spread_rises mono (.refl h.right) zero' proper proper
          (Curve.le_refl_of_isProbability proper)).right
    exact ⟨free, zero_le_iff.mpr cost⟩

theorem ascending_gaussian {p : Precision} {scale : Binary p} {m : Measurement}
    (h : gaussian p scale = .ok m) : m.Ascending := by
  obtain ⟨isScale, rfl⟩ := gaussian_eq_ok h
  refine ascending_of_distance (fun d => rfl) fun x y le => .curve ?_
  intro delta delta' e e' order he he'
  obtain ⟨proper', he⟩ := Curve.epsilon_eq_ok he
  obtain ⟨proper, he'⟩ := Curve.epsilon_eq_ok he'
  cases he
  cases he'
  have rho := (div_scale_rises isScale le).mul_self.half
  exact ((concentratedEpsilon_rises mono rho proper proper' order).roundUp p).convert

end Kernels

/-! ### Combinators -/

theorem Ascending.chain {second m : Measurement} {first : Transformation} (hs : second.Ascending)
    (hf : first.Ascending) (h : Measurement.chain second first = .ok m) : m.Ascending := by
  obtain ⟨_, metric, rfl⟩ := chain_eq_ok h
  intro d d' l l' order hl hl'
  obtain ⟨mid, hmid, hl⟩ := bind_eq_ok_iff.mp (boundAt_eq_ok hl).2
  obtain ⟨mid', hmid', hl'⟩ := bind_eq_ok_iff.mp (boundAt_eq_ok hl').2
  have middle := hf d d' mid mid' order hmid hmid' (boundAt_eq_ok hl).1 (boundAt_eq_ok hl').1
  rw [metric] at middle
  exact hs mid mid' l l' middle hl hl'

/-- What a measurement of a pure loss costs, as doubles. -/
theorem Ascending.toDouble {m : Measurement} (h : m.Ascending) {p : Precision}
    (hm : m.outputMeasure = .maxDivergence p) {d d' l l' : Value} {x y : Binary .double}
    (order : Ascends m.inputMetric.distance d d') (hl : m.boundAt d = .ok l)
    (hl' : m.boundAt d' = .ok l') (hx : l.toDouble = .ok x) (hy : l'.toDouble = .ok y) :
    x.Rises y := by
  have losses := h d d' l l' order hl hl'
  rw [hm] at losses
  exact CompositionRule.toDouble_rises losses x y hx hy

theorem Ascending.fixDelta {part m : Measurement} {delta : Binary .double} (hp : part.Ascending)
    (h : part.fixDelta delta = .ok m) : m.Ascending := by
  obtain ⟨p, hm, proper, rfl⟩ := fixDelta_eq_ok h
  intro d d' l l' order hl hl'
  obtain ⟨b, hb, hl⟩ := bind_eq_ok_iff.mp (boundAt_eq_ok hl).2
  obtain ⟨c, hc, hl⟩ := bind_eq_ok_iff.mp hl
  obtain ⟨e, he, hl⟩ := bind_eq_ok_iff.mp hl
  obtain ⟨b', hb', hl'⟩ := bind_eq_ok_iff.mp (boundAt_eq_ok hl').2
  obtain ⟨c', hc', hl'⟩ := bind_eq_ok_iff.mp hl'
  obtain ⟨e', he', hl'⟩ := bind_eq_ok_iff.mp hl'
  cases hl
  cases hl'
  have curves := hp d d' b b' order hb hb'
  rw [hm] at curves
  have epsilons := CompositionRule.toCurve_rises curves c c' hc hc' delta delta e e'
    (Curve.le_refl_of_isProbability proper) he he'
  exact .pair (epsilons.roundUp p) (.roundUp (.refl (Curve.onSide_of_isProbability proper)) p)

theorem changedRecords_count (unit : Nat) (n : Bounded .u32) :
    changedRecords unit (.integer .u32 n) = .ok (.ofInt ((n.val + unit - 1) / unit)) := rfl

theorem changedRecords_rises {unit : Nat} (pos : 0 < unit) {d d' : Value}
    (h : Ascends (.integer .u32) d d') {x y : Binary .double} (hx : changedRecords unit d = .ok x)
    (hy : changedRecords unit d' = .ok y) : x.Rises y := by
  obtain ⟨m, n, rfl, rfl, order⟩ := h.count
  rw [changedRecords_count] at hx hy
  cases hx
  cases hy
  have least : 0 ≤ m.val := m.least_le
  exact rises_ofInt (Int.ediv_nonneg (by omega) (by omega)) (Int.ediv_le_ediv (by omega) (by omega))

section Combinators

variable [Elementary] (mono : Elementary.IsMonotone)

include mono

theorem Ascending.compose {rule : CompositionRule} (proper : rule.IsProper) {ms : List Measurement}
    {m : Measurement} (hms : ∀ part ∈ ms, part.Ascending)
    (h : Measurement.compose rule ms = .ok m) : m.Ascending := by
  obtain ⟨first, rest, rfl, ha, hs, rfl⟩ := compose_eq_ok h
  intro d d' l l' order hl hl'
  obtain ⟨losses, hlosses, hl⟩ := bind_eq_ok_iff.mp (boundAt_eq_ok hl).2
  obtain ⟨losses', hlosses', hl'⟩ := bind_eq_ok_iff.mp (boundAt_eq_ok hl').2
  have parts : List.Forall₂ (fun part part' => part = part' ∧ part ∈ first :: rest)
      (first :: rest) (first :: rest) := List.forall₂_same.mpr fun part hp => ⟨rfl, hp⟩
  refine CompositionRule.compose_rises mono proper
    (forall₂_of_mapM parts ?_ hlosses hlosses') hl hl'
  rintro part _ ⟨rfl, hp⟩ b b' hb hb'
  obtain ⟨metric, measure⟩ := metric_and_measure ha hp
  rw [← measure]
  exact hms part hp d d' b b' (metric ▸ order) hb hb'

omit mono in
theorem amplifiedLoss_eq_ok {m : Measurement} {p : Precision} {unit : Nat} {ratio : Binary .double}
    {d l : Value} (h : m.amplifiedLoss p unit ratio d = .ok l) :
    ∃ records b one b' plain, changedRecords unit d = .ok records ∧
      m.boundAt (.count unit) = .ok b ∧ b.toDouble = .ok one ∧ m.boundAt d = .ok b' ∧
      b'.toDouble = .ok plain ∧
      l = .upward p ((records * Elementary.ln1p (ratio * Elementary.expm1 one)).min plain) := by
  obtain ⟨records, hr, h⟩ := bind_eq_ok_iff.mp h
  obtain ⟨b, hb, h⟩ := bind_eq_ok_iff.mp h
  obtain ⟨one, hone, h⟩ := bind_eq_ok_iff.mp h
  obtain ⟨b', hb', h⟩ := bind_eq_ok_iff.mp h
  obtain ⟨plain, hplain, h⟩ := bind_eq_ok_iff.mp h
  exact ⟨records, b, one, b', plain, hr, hb, hone, hb', hplain, (Except.ok.inj h).symm⟩

omit [Elementary] mono in
theorem exists_standsAt_ratio (sample : Nat) {population : Nat} (pos : 0 < population) :
    ∃ r, (ofNat sample / ofNat population : Binary .double).StandsAt r := by
  obtain ⟨r, hr⟩ := (onSide_ofInt (p := .double) (Int.natCast_nonneg sample)).exists_standsAt
  obtain ⟨k, bound, hk, size⟩ := (one_rises_ofNat pos).exists_of_one
  rw [size]
  exact ⟨_, hr.div hk bound⟩

/-- The amplified loss of each changed record is the same at every distance, and the number of records
rises. With no record changed the product may be a NaN; then the plain loss is the minimum. -/
theorem Ascending.amplify {part m : Measurement} {population : Nat} (hp : part.Ascending)
    (h : part.amplify population = .ok m) : m.Ascending := by
  obtain ⟨_, sample, p, unit, _, some, within, hm, hu, rfl⟩ := amplify_eq_ok h
  have counts := Metric.distance_of_oneRecord? hu
  intro d d' l l' order hl hl'
  obtain ⟨records, b, one, b', plain, hr, hb, hone, hb', hplain, rfl⟩ :=
    amplifiedLoss_eq_ok (boundAt_eq_ok hl).2
  obtain ⟨records', c, one', c', plain', hr', hc, hone', hc', hplain', rfl⟩ :=
    amplifiedLoss_eq_ok (boundAt_eq_ok hl').2
  cases hb.symm.trans hc
  cases hone.symm.trans hone'
  have plains := hp.toDouble hm order hb' hc' hplain hplain'
  have neighbours : Ascends part.inputMetric.distance (.count unit) (.count unit) := by
    rw [counts]
    exact .refl (boundAt_eq_ok hb).1
  obtain ⟨r, hratio⟩ := exists_standsAt_ratio sample (show 0 < population by omega)
  have single := mono.expm1_rises (hp.toDouble hm neighbours hb hb hone hone)
  obtain ⟨k, hk⟩ := single.side.exists_standsAt
  obtain ⟨j, factor⟩ := mono.exists_standsAt_ln1p (hratio.mul hk)
  rw [counts] at order
  have changed := changedRecords_rises (Metric.pos_of_oneRecord? hu) order hr hr'
  rw [hm]
  exact .number ((Rises.min_right (changed.under.mul factor.under) plains).roundUp p)

theorem Built.ascending {m : Measurement} (h : m.Built) : m.Ascending := by
  induction h with
  | laplace h => exact ascending_laplace h
  | gaussian h => exact ascending_gaussian mono h
  | geometric h => exact ascending_geometric h
  | chain _ hf h second => exact second.chain hf.ascending h
  | compose proper _ h parts => exact .compose mono proper parts h
  | amplify _ h part => exact part.amplify mono h
  | fixDelta _ h part => exact part.fixDelta h

end Combinators

end Measurement

/-! ## The order of losses -/

/-- A smaller delta costs no less. -/
def Curve.NonIncreasing (c : Curve) : Prop :=
  ∀ delta delta' e e', delta.le delta' → c.epsilon delta = .ok e → c.epsilon delta' = .ok e' →
    e'.le e

/-- One loss is at most another: as a number, in both components, or at every delta at which both
curves have an epsilon. -/
inductive Measure.AtMost : Measure → Value → Value → Prop where
  | number {p : Precision} {x y : Binary p} : x.le y →
      AtMost (.maxDivergence p) (.float p x) (.float p y)
  | curve {p : Precision} {c c' : Curve} :
      (∀ delta e e', c.epsilon delta = .ok e → c'.epsilon delta = .ok e' → e.le e') →
      AtMost (.smoothedMaxDivergence p) (.curve c) (.curve c')
  | pair {p : Precision} {e d e' d' : Binary p} : e.le e' → d.le d' →
      AtMost (.fixedSmoothedMaxDivergence p) (.tuple [.float p e, .float p d])
        (.tuple [.float p e', .float p d'])

theorem Measure.Rises.atMost {m : Measure} {l l' : Value} (h : m.Rises l l') : m.AtMost l l' := by
  cases h with
  | number h => exact .number h.le
  | curve h =>
    refine .curve fun delta e e' he he' => ?_
    have proper := (Curve.epsilon_eq_ok he).1
    exact (h delta delta e e' (Curve.le_refl_of_isProbability proper) he he').le
  | pair he hd => exact .pair he.le hd.le

theorem Curve.Rises.nonIncreasing {c : Curve} (h : c.Rises c) : c.NonIncreasing :=
  fun delta delta' e e' le he he' => (h delta delta' e' e le he' he).le

namespace Measurement

theorem map_eq_ok {m : Measurement} {d l : Value} (h : m.map d = .ok l) :
    d.type = m.inputMetric.distanceType ∧ m.boundAt d = .ok l := by
  obtain ⟨_, typed, h⟩ := bind_eq_ok_iff.mp h
  unfold checkDistanceType at typed
  split at typed
  · exact ⟨‹_›, h⟩
  · cases typed

/-- A built measurement does not lose less at a larger distance, and its curves do not increase. -/
theorem Built.losses_atMost [Elementary] (mono : Elementary.IsMonotone) {m : Measurement}
    (h : m.Built) :
    (∀ d d' l l', Distance.le d d' = .ok true → m.map d = .ok l → m.map d' = .ok l' →
      m.outputMeasure.AtMost l l') ∧
    ∀ d c, m.map d = .ok (.curve c) → c.NonIncreasing := by
  have ascending := h.ascending mono
  constructor
  · intro d d' l l' le hl hl'
    obtain ⟨type, bound⟩ := map_eq_ok hl
    obtain ⟨type', bound'⟩ := map_eq_ok hl'
    exact (ascending d d' l l' (Distance.ascends_of_le le type type') bound bound').atMost
  · intro d c hc
    obtain ⟨type, bound⟩ := map_eq_ok hc
    obtain ⟨x, rfl⟩ := Value.type_eq_numeric_iff.mp type
    have self := ascending _ _ _ _ (.refl (boundAt_eq_ok bound).1) bound bound
    generalize m.outputMeasure = measure at self
    cases self with
    | curve h => exact h.nonIncreasing

/-- Gaussian noise of scale one, at the distances one and two. -/
theorem Built.losses_atMost_gaussian :
    letI := Elementary.nearest
    ∃ m c c', Measurement.gaussian .double 1 = .ok m ∧ m.map (.float .double 1) = .ok (.curve c) ∧
      m.map (.float .double 2) = .ok (.curve c') ∧
      (∀ delta e e', c.epsilon delta = .ok e → c'.epsilon delta = .ok e' → e.le e') ∧
      c'.NonIncreasing ∧ ∃ e e', c.epsilon (1 / 2) = .ok e ∧ c'.epsilon (1 / 2) = .ok e' := by
  let _ := Elementary.nearest
  have scale : checkScale (Binary.convert (1 : Binary .double)) = .ok () := by
    rw [Binary.convert_self]
    exact if_pos (by decide +kernel)
  obtain ⟨m, made⟩ : ∃ m, Measurement.gaussian .double 1 = .ok m := by
    rw [Measurement.gaussian, scale]
    exact ⟨_, rfl⟩
  have built : m.Built := .gaussian made
  have curve : ∀ x : Binary .double, Distance.isUsable x →
      ∃ c, m.map (.float .double x) = .ok (.curve c) ∧ ∃ e, c.epsilon (1 / 2) = .ok e := by
    intro x usable
    have valid : Distance.validate (.float .double x) = .ok () := by
      unfold Value.float Value.numeric Distance.validate
      exact if_pos (by rwa [Numeric.toDouble, Binary.convert_self])
    obtain ⟨_, rfl⟩ := gaussian_eq_ok made
    have proper : Curve.isProbability (1 / 2) := by decide +kernel
    exact ⟨_, (map_of_type rfl).trans (bind_eq_ok_iff.mpr ⟨(), valid, rfl⟩), _,
      (if_pos proper).trans rfl⟩
  obtain ⟨c, hc, e, he⟩ := curve 1 (by decide +kernel)
  obtain ⟨c', hc', e', he'⟩ := curve 2 (by decide +kernel)
  obtain ⟨ordered, falling⟩ := Built.losses_atMost Elementary.nearest_isMonotone built
  have le : Distance.le (.float .double 1) (.float .double 2) = .ok true :=
    (Distance.le_numeric (q := .float .double) 1 2).trans (congrArg Except.ok (by decide +kernel))
  have atMost := ordered _ _ _ _ le hc hc'
  refine ⟨m, c, c', made, hc, hc', ?_, falling _ _ hc', e, e', he, he'⟩
  generalize m.outputMeasure = measure at atMost
  cases atMost with
  | curve h => exact h

end Measurement

end PrivateRelease
