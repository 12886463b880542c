import PrivateRelease.Proofs.Mechanism.Monotonicity

/-!
# The signs of losses

No loss is below zero or a NaN. Less has to be known of the elementary functions for that than for the
order of losses: their signs, and that a logarithm above one is not zero.
-/

namespace PrivateRelease

open Binary

/-- The logarithm and the exponential are on the right side of zero. -/
structure Elementary.IsSigned [Elementary] : Prop where
  ln_pos : ∀ x, Binary.lt 1 x → Binary.lt 0 (ln x)
  expm1_onSide : ∀ x, OnSide false x → (expm1 x).OnSide false
  ln1p_onSide : ∀ x, OnSide false x → (ln1p x).OnSide false
  ln1p_nan : ∀ x, x.isNaN → (ln1p x).isNaN

namespace Elementary

variable [Elementary]

theorem IsMonotone.isSigned (mono : Elementary.IsMonotone) : Elementary.IsSigned where
  ln_pos := mono.ln_pos
  expm1_onSide _ hx := (mono.expm1_rises (.refl hx)).side
  ln1p_onSide _ hx := (mono.ln1p_rises (.refl hx)).side
  ln1p_nan := mono.ln1p_nan

theorem IsSigned.exists_standsAt_ln1p (signed : Elementary.IsSigned) {x : Binary .double} {r : Nat}
    (h : x.StandsAt r) : ∃ k, (ln1p x).StandsAt k := by
  cases number : x.isNaN with
  | false => exact (signed.ln1p_onSide x (h.onSide number)).exists_standsAt
  | true =>
    have result := signed.ln1p_nan x number
    generalize ln1p x = z at result
    cases z with
    | nan => exact ⟨_, .nan ..⟩
    | number => cases result

end Elementary

namespace Binary

variable {p : Precision} {x y : Binary p}

theorem OnSide.sum {xs : List (Binary p)} (h : ∀ x ∈ xs, x.OnSide false) :
    (sum xs).OnSide false :=
  sum_induction (.inr rfl) fun _ ha x hx => ha.add (h x hx)

theorem OnSide.roundUp {x : Binary .double} (h : x.OnSide false) (p : Precision) :
    (x.roundUp p).OnSide false :=
  ((Rises.refl h).roundUp p).side

theorem OnSide.convert {q : Precision} (h : x.OnSide false) :
    (x.convert : Binary q).OnSide false :=
  (Rises.refl h).convert.side

/-- A sum of what stands at ranks stands at a rank. -/
theorem exists_standsAt_sum {xs : List (Binary p)} (h : ∀ x ∈ xs, ∃ r, x.StandsAt r) :
    ∃ r, (sum xs).StandsAt r := by
  refine sum_induction (P := fun a => ∃ r, a.StandsAt r) ⟨0, standsAt_zero true⟩ ?_
  rintro a ⟨r, ha⟩ x hx
  obtain ⟨k, hk⟩ := h x hx
  exact ⟨_, ha.add hk⟩

end Binary

namespace Distance

/-- A valid distance is not below zero. -/
theorem onSide_of_validate {d : Value} {u : Unit} {x : Binary .double} (valid : validate d = .ok u)
    (h : d.toDouble = .ok x) : x.OnSide false := by
  unfold Value.toDouble at h
  split at h
  · cases h
    unfold validate at valid
    split at valid
    · next usable => exact onSide_of_isUsable usable
    · cases valid
  · cases h

end Distance

/-! ## Losses -/

/-- No epsilon of the curve is below zero or a NaN. -/
def Curve.IsProper (c : Curve) : Prop := ∀ delta e, c.epsilon delta = .ok e → e.OnSide false

/-- A loss of the measure in which no number is below zero or a NaN. -/
inductive Measure.IsProper : Measure → Value → Prop where
  | number {p : Precision} {x : Binary p} : x.OnSide false →
      IsProper (.maxDivergence p) (.float p x)
  | curve {p : Precision} {c : Curve} : c.IsProper → IsProper (.smoothedMaxDivergence p) (.curve c)
  | pair {p : Precision} {e d : Binary p} : e.OnSide false → d.OnSide false →
      IsProper (.fixedSmoothedMaxDivergence p) (.tuple [.float p e, .float p d])

namespace CompositionRule

variable {p : Precision}

theorem toDouble_onSide {l : Value} (h : Measure.IsProper (.maxDivergence p) l) {x : Binary .double}
    (hx : l.toDouble = .ok x) : x.OnSide false := by
  cases h with
  | number h =>
    cases hx
    exact h.convert

theorem toCurve_isProper {l : Value} (h : Measure.IsProper (.smoothedMaxDivergence p) l) {c : Curve}
    (hc : l.toCurve = .ok c) : c.IsProper := by
  cases h with
  | curve h =>
    cases hc
    exact h

theorem splitPair_onSide {l : Value} (h : Measure.IsProper (.fixedSmoothedMaxDivergence p) l)
    {x : Binary .double × Binary .double} (hx : splitPair l = .ok x) :
    x.1.OnSide false ∧ x.2.OnSide false := by
  cases h with
  | pair he hd =>
    cases hx
    exact ⟨he.convert, hd.convert⟩

theorem splitPairs_onSide {losses : List Value}
    (h : ∀ l ∈ losses, Measure.IsProper (.fixedSmoothedMaxDivergence p) l)
    {x : List (Binary .double) × List (Binary .double)} (hx : splitPairs losses = .ok x) :
    (∀ e ∈ x.1, e.OnSide false) ∧ ∀ d ∈ x.2, d.OnSide false := by
  obtain ⟨pairs, hp, hx⟩ := bind_eq_ok_iff.mp hx
  cases hx
  have sides := forall_mem_of_mapM (fun l hl _ => splitPair_onSide (h l hl)) hp
  rw [List.unzip_eq_map]
  constructor
  · simpa using fun e d h => (sides (e, d) h).1
  · simpa using fun d e h => (sides (e, d) h).2

theorem sumCurve_isProper (p : Precision) {curves : List Curve} (h : ∀ c ∈ curves, c.IsProper) :
    (sumCurve p curves).IsProper := by
  intro delta e he
  obtain ⟨es, hes, he⟩ := bind_eq_ok_iff.mp (Curve.epsilon_eq_ok he).2
  cases he
  exact .sum (forall_mem_of_mapM (fun c hc e he => h c hc _ e he) hes)

theorem composeAdditive_isProper {m : Measure} {losses : List Value} {l : Value}
    (h : ∀ l ∈ losses, m.IsProper l) (hl : composeAdditive m losses = .ok l) : m.IsProper l := by
  cases m with
  | maxDivergence p =>
    obtain ⟨xs, hxs, hl⟩ := bind_eq_ok_iff.mp hl
    cases hl
    have sum := OnSide.sum (forall_mem_of_mapM (fun l hl _ => toDouble_onSide (h l hl)) hxs)
    exact .number (sum.roundUp p)
  | smoothedMaxDivergence p =>
    obtain ⟨cs, hcs, hl⟩ := bind_eq_ok_iff.mp hl
    cases hl
    exact .curve (sumCurve_isProper p
      (forall_mem_of_mapM (fun l hl _ => toCurve_isProper (h l hl)) hcs))
  | fixedSmoothedMaxDivergence p =>
    obtain ⟨x, hx, hl⟩ := bind_eq_ok_iff.mp hl
    cases hl
    obtain ⟨epsilons, deltas⟩ := splitPairs_onSide h hx
    exact .pair ((OnSide.sum epsilons).roundUp p) ((OnSide.sum deltas).roundUp p)

section Advanced

variable [Elementary] (signed : Elementary.IsSigned)

include signed

/-- The advanced formula is a NaN at worst. -/
theorem exists_standsAt_advancedEpsilon {deltaPrime : Binary .double}
    (proper : Curve.isProbability deltaPrime) {es : List (Binary .double)}
    (h : ∀ e ∈ es, e.OnSide false) : ∃ r, (advancedEpsilon deltaPrime es).StandsAt r := by
  obtain ⟨pos, below⟩ := Curve.lt_of_isProbability proper
  obtain ⟨i, log⟩ := (onSide_of_pos (signed.ln_pos _ (one_lt_inverse pos below))).exists_standsAt
  obtain ⟨j, two⟩ := two_rises.side.exists_standsAt
  obtain ⟨k, squares⟩ : ∃ r, (Binary.sum (es.map fun e => e * e)).StandsAt r := by
    refine exists_standsAt_sum fun x hx => ?_
    obtain ⟨e, he, rfl⟩ := List.mem_map.mp hx
    obtain ⟨r, hr⟩ := (h e he).exists_standsAt
    exact ⟨_, hr.mul hr⟩
  obtain ⟨n, drift⟩ : ∃ r, (Binary.sum (es.map fun e => e * Elementary.expm1 e)).StandsAt r := by
    refine exists_standsAt_sum fun x hx => ?_
    obtain ⟨e, he, rfl⟩ := List.mem_map.mp hx
    obtain ⟨r, hr⟩ := (h e he).exists_standsAt
    obtain ⟨t, ht⟩ := (signed.expm1_onSide e (h e he)).exists_standsAt
    exact ⟨_, hr.mul ht⟩
  exact ⟨_, ((two.mul log).mul squares).sqrt.add drift⟩

/-- The additive bound is a number, so the minimum is one. -/
theorem composeAdvanced_isProper {deltaPrime : Binary .double}
    (proper : Curve.isProbability deltaPrime) {losses : List Value} {l : Value}
    (h : ∀ l ∈ losses, Measure.IsProper (.fixedSmoothedMaxDivergence p) l)
    (hl : composeAdvanced deltaPrime p losses = .ok l) :
    Measure.IsProper (.fixedSmoothedMaxDivergence p) l := by
  obtain ⟨x, hx, hl⟩ := bind_eq_ok_iff.mp hl
  cases hl
  obtain ⟨epsilons, deltas⟩ := splitPairs_onSide h hx
  obtain ⟨r, advanced⟩ := exists_standsAt_advancedEpsilon signed proper epsilons
  have capped := (Rises.refl (OnSide.sum epsilons)).min_left advanced.under
  have spent := (OnSide.sum deltas).add (Curve.onSide_of_isProbability proper)
  exact .pair (capped.side.roundUp p) (spent.roundUp p)

theorem compose_isProper {rule : CompositionRule} (proper : rule.IsProper) {m : Measure}
    {losses : List Value} {l : Value} (h : ∀ l ∈ losses, m.IsProper l)
    (hl : rule.compose m losses = .ok l) : m.IsProper l := by
  cases rule with
  | additive => exact composeAdditive_isProper h hl
  | advanced deltaPrime =>
    obtain ⟨_, supported, hl⟩ := bind_eq_ok_iff.mp hl
    cases m with
    | fixedSmoothedMaxDivergence p => exact composeAdvanced_isProper signed proper h hl
    | maxDivergence p => cases supported
    | smoothedMaxDivergence p => cases supported

end Advanced

end CompositionRule

/-! ## Measurements -/

namespace Measurement

/-- Every loss of the measurement is proper. -/
def LosesProperly (m : Measurement) : Prop :=
  ∀ d l, m.boundAt d = .ok l → m.outputMeasure.IsProper l

/-- The formulas of noisy releases: an expression in the distance. -/
theorem losesProperly_of_distance {m : Measurement} {f : Binary .double → Value}
    (h : ∀ d, m.privacy d = do return f (← d.toDouble))
    (proper : ∀ x, x.OnSide false → m.outputMeasure.IsProper (f x)) : m.LosesProperly := by
  intro d l hl
  obtain ⟨valid, hl⟩ := boundAt_eq_ok hl
  rw [h] at hl
  obtain ⟨x, hx, hl⟩ := bind_eq_ok_iff.mp hl
  cases hl
  exact proper x (Distance.onSide_of_validate valid hx)

theorem div_scale_onSide {scale x : Binary .double} (h : Noise.isScale scale)
    (hx : x.OnSide false) : (x / scale).OnSide false :=
  (div_scale_rises h (.refl hx)).side

variable [Elementary]

theorem losesProperly_laplace {p : Precision} {scale : Binary p} {m : Measurement}
    (h : laplace p scale = .ok m) : m.LosesProperly := by
  obtain ⟨isScale, rfl⟩ := laplace_eq_ok h
  exact losesProperly_of_distance (fun d => rfl) fun x hx =>
    .number ((div_scale_onSide isScale hx).roundUp p)

theorem losesProperly_geometric {k : IntegerType} {scale : Binary .double} {m : Measurement}
    (h : geometric k scale = .ok m) : m.LosesProperly := by
  obtain ⟨isScale, rfl⟩ := geometric_eq_ok h
  exact losesProperly_of_distance (fun d => rfl) fun x hx => .number (div_scale_onSide isScale hx)

variable (signed : Elementary.IsSigned)

include signed in
/-- A concentration of zero is not multiplied by the logarithm, which may be infinite. -/
theorem concentratedEpsilon_onSide {rho delta : Binary .double} (h : rho.OnSide false)
    (proper : Curve.isProbability delta) : (concentratedEpsilon rho delta).OnSide false := by
  unfold concentratedEpsilon
  cases zero : rho.isZero with
  | true => exact .inr rfl
  | false =>
    obtain ⟨pos, below⟩ := Curve.lt_of_isProbability proper
    have log := signed.ln_pos _ (one_lt_inverse pos below)
    have product := (Rises.refl h).mul (.refl (onSide_of_pos log)) zero (isZero_of_pos log)
    exact h.add product.sqrt.double.side

include signed in
theorem losesProperly_gaussian {p : Precision} {scale : Binary p} {m : Measurement}
    (h : gaussian p scale = .ok m) : m.LosesProperly := by
  obtain ⟨isScale, rfl⟩ := gaussian_eq_ok h
  refine losesProperly_of_distance (fun d => rfl) fun x hx => .curve ?_
  intro delta e he
  obtain ⟨proper, he⟩ := Curve.epsilon_eq_ok he
  cases he
  have rho := (Rises.refl (div_scale_onSide isScale hx)).mul_self.half.side
  exact ((concentratedEpsilon_onSide signed rho proper).roundUp p).convert

omit [Elementary] in
theorem LosesProperly.chain {second m : Measurement} {first : Transformation}
    (hs : second.LosesProperly) (h : Measurement.chain second first = .ok m) :
    m.LosesProperly := by
  obtain ⟨_, _, rfl⟩ := chain_eq_ok h
  intro d l hl
  obtain ⟨mid, _, hl⟩ := bind_eq_ok_iff.mp (boundAt_eq_ok hl).2
  exact hs mid l hl

include signed in
theorem LosesProperly.compose {rule : CompositionRule} (proper : rule.IsProper)
    {ms : List Measurement} {m : Measurement} (hms : ∀ part ∈ ms, part.LosesProperly)
    (h : Measurement.compose rule ms = .ok m) : m.LosesProperly := by
  obtain ⟨first, rest, rfl, ha, hs, rfl⟩ := compose_eq_ok h
  intro d l hl
  obtain ⟨losses, hlosses, hl⟩ := bind_eq_ok_iff.mp (boundAt_eq_ok hl).2
  refine CompositionRule.compose_isProper signed proper
    (forall_mem_of_mapM (fun part hp b hb => ?_) hlosses) hl
  rw [← (metric_and_measure ha hp).2]
  exact hms part hp d b hb

include signed in
/-- With no record changed the product may be a NaN; then the plain loss is the minimum. -/
theorem LosesProperly.amplify {part m : Measurement} {population : Nat} (hp : part.LosesProperly)
    (h : part.amplify population = .ok m) : m.LosesProperly := by
  obtain ⟨_, sample, p, unit, _, some, within, hm, hu, rfl⟩ := amplify_eq_ok h
  intro d l hl
  obtain ⟨records, b, one, b', plain, hr, hb, hone, hb', hplain, rfl⟩ :=
    amplifiedLoss_eq_ok (boundAt_eq_ok hl).2
  have single := CompositionRule.toDouble_onSide (hm ▸ hp _ b hb) hone
  have plain := CompositionRule.toDouble_onSide (hm ▸ hp _ b' hb') hplain
  obtain ⟨n, hn, hr⟩ := bind_eq_ok_iff.mp hr
  cases hr
  have least : 0 ≤ n.val := n.least_le
  have pos := Metric.pos_of_oneRecord? hu
  obtain ⟨i, changed⟩ := (onSide_ofInt (p := .double)
    (show 0 ≤ (n.val + unit - 1) / (unit : Int) from
      Int.ediv_nonneg (by omega) (by omega))).exists_standsAt
  obtain ⟨r, ratio⟩ := exists_standsAt_ratio sample (show 0 < population by omega)
  obtain ⟨k, cost⟩ := (signed.expm1_onSide _ single).exists_standsAt
  obtain ⟨j, factor⟩ := signed.exists_standsAt_ln1p (ratio.mul cost)
  rw [hm]
  exact .number ((Rises.min_right (changed.mul factor).under (.refl plain)).side.roundUp p)

omit [Elementary] in
theorem LosesProperly.fixDelta {part m : Measurement} {delta : Binary .double}
    (hp : part.LosesProperly) (h : part.fixDelta delta = .ok m) : m.LosesProperly := by
  obtain ⟨p, hm, proper, rfl⟩ := fixDelta_eq_ok h
  intro d l hl
  obtain ⟨b, hb, hl⟩ := bind_eq_ok_iff.mp (boundAt_eq_ok hl).2
  obtain ⟨c, hc, hl⟩ := bind_eq_ok_iff.mp hl
  obtain ⟨e, he, hl⟩ := bind_eq_ok_iff.mp hl
  cases hl
  have curve := CompositionRule.toCurve_isProper (hm ▸ hp d b hb) hc
  exact .pair ((curve delta e he).roundUp p) ((Curve.onSide_of_isProbability proper).roundUp p)

include signed in
/-- No loss of a built measurement is below zero or a NaN. -/
theorem Built.losesProperly {m : Measurement} (h : m.Built) : m.LosesProperly := by
  induction h with
  | laplace h => exact losesProperly_laplace h
  | gaussian h => exact losesProperly_gaussian signed h
  | geometric h => exact losesProperly_geometric h
  | chain _ _ h second => exact second.chain h
  | compose proper _ h parts => exact .compose signed proper parts h
  | amplify _ h part => exact part.amplify signed h
  | fixDelta _ h part => exact part.fixDelta h

end Measurement

end PrivateRelease
