import PrivateRelease.Proofs.Mechanism.Additive

/-!
# Splitting a delta

A delta can be fixed after measurements are composed, or an even share of it before. Composed curves
ask each curve at the share, one after another once all maps have given a curve; measurements with the
share fixed ask map and curve in turn. Either way the epsilons are the same and are added in the same
order, so for doubles, which no rounding up changes, the two ways give the same epsilon.
-/

namespace PrivateRelease

open Binary

namespace Measurement

variable {p : Precision} {m : Measurement} {ms : List Measurement} {d l : Value}
  {delta : Binary .double}

/-! ## The parts of the two ways -/

/-- The epsilon at `delta` of a measurement whose loss is a curve. -/
def epsilonAt (m : Measurement) (delta : Binary .double) (d : Value) :
    Except Error (Binary .double) := do
  (← (← m.boundAt d).toCurve).epsilon delta

/-- `m` with `delta` fixed. -/
def atDelta (m : Measurement) (p : Precision) (delta : Binary .double) : Measurement :=
  { m with
    outputMeasure := .fixedSmoothedMaxDivergence p
    privacy := fun d => do
      let epsilon ← (← (← m.boundAt d).toCurve).epsilon delta
      return .tuple [.upward p epsilon, .upward p delta] }

theorem fixDelta_eq_atDelta (measure : m.outputMeasure = .smoothedMaxDivergence p)
    (proper : Curve.isProbability delta) : m.fixDelta delta = .ok (m.atDelta p delta) := by
  simp only [fixDelta, measure, proper, Bool.not_true, Bool.false_eq_true, if_false]
  rfl

/-- All measurements together under the additive rule. -/
def additive [Elementary] (first : Measurement) (rest : List Measurement) : Measurement where
  inputDomain := first.inputDomain
  outputDomain := .product ((first :: rest).map (·.outputDomain))
  function v := do return .tuple (← (first :: rest).mapM fun m => m.function v)
  inputMetric := first.inputMetric
  outputMeasure := first.outputMeasure
  privacy d := do
    CompositionRule.additive.compose first.outputMeasure
      (← (first :: rest).mapM fun m => m.boundAt d)

theorem checkAgree_of_agrees {first : Measurement} {rest : List Measurement} (index : Nat)
    (agree : ∀ m ∈ rest, Agrees first m) : checkAgree first index rest = .ok () := by
  induction rest generalizing index with
  | nil => rfl
  | cons m rest ih =>
    obtain ⟨domain, metric, measure⟩ := agree m List.mem_cons_self
    simp only [checkAgree, domain, metric, measure, Bool.not_true, Bool.false_eq_true, if_false,
      ne_eq, not_true_eq_false]
    exact ih (index + 1) fun m hm => agree m (List.mem_cons_of_mem _ hm)

theorem compose_additive [Elementary] {first : Measurement} {rest : List Measurement}
    (agree : ∀ m ∈ rest, Agrees first m) :
    compose .additive (first :: rest) = .ok (additive first rest) := by
  rw [compose, checkAgree_of_agrees 1 agree]
  rfl

theorem Agrees.atDelta {first m : Measurement} (h : Agrees first m) :
    Agrees (first.atDelta p delta) (m.atDelta p delta) :=
  ⟨h.domain, h.metric, rfl⟩

/-! ## The epsilons of the parts -/

theorem mapM_epsilonAt_eq_ok_iff {es : List (Binary .double)} :
    ms.mapM (fun m => m.epsilonAt delta d) = .ok es ↔ ∃ curves,
      (∃ losses, ms.mapM (fun m => m.boundAt d) = .ok losses ∧
        losses.mapM Value.toCurve = .ok curves) ∧
      curves.mapM (fun c => c.epsilon delta) = .ok es := by
  have steps : (fun m : Measurement => m.epsilonAt delta d) = fun m =>
      (m.boundAt d >>= Value.toCurve) >>= fun c => c.epsilon delta := by
    funext m
    rw [bind_assoc]
    rfl
  rw [steps, mapM_bind_eq_ok_iff]
  simp only [mapM_bind_eq_ok_iff]

theorem validate_of_mapM_epsilonAt {first : Measurement} {rest : List Measurement}
    {es : List (Binary .double)}
    (h : (first :: rest).mapM (fun m => m.epsilonAt delta d) = .ok es) :
    Distance.validate d = .ok () := by
  rw [List.mapM_cons] at h
  obtain ⟨_, h, _⟩ := bind_eq_ok_iff.mp h
  obtain ⟨_, h, _⟩ := bind_eq_ok_iff.mp h
  exact (boundAt_eq_ok h).1

/-- Doubles of one delta add up as they are. -/
theorem composeAdditive_share (es : List (Binary .double)) (share : Binary .double) :
    CompositionRule.composeAdditive (.fixedSmoothedMaxDivergence .double)
        (es.map fun e => .tuple [.float .double e, .float .double share]) =
      .ok (.tuple [.float .double (sum es),
        .float .double (sum (List.replicate es.length share))]) := by
  have split := CompositionRule.splitPairs_map (p := .double) (es.map fun e => (e, share))
  simp only [List.map_map, Function.comp_def, convert_self, List.map_id', List.map_const'] at split
  rw [CompositionRule.composeAdditive, split]
  rfl

variable [Elementary] {first : Measurement} {rest : List Measurement}

/-- Composed first: the curves are asked at an even share of the delta. -/
theorem additive_atDelta_eq_ok_iff (measure : first.outputMeasure = .smoothedMaxDivergence .double) :
    ((additive first rest).atDelta .double delta).boundAt d = .ok l ↔
      Curve.isProbability delta ∧ ∃ es,
        (first :: rest).mapM (fun m =>
          m.epsilonAt (delta / ofNat (first :: rest).length) d) = .ok es ∧
        l = .tuple [.float .double (sum es), .float .double delta] := by
  constructor
  · intro h
    obtain ⟨b, hb, h⟩ := bind_eq_ok_iff.mp (boundAt_eq_ok h).2
    obtain ⟨c, hc, h⟩ := bind_eq_ok_iff.mp h
    obtain ⟨e, he, h⟩ := bind_eq_ok_iff.mp h
    cases h
    obtain ⟨losses, hlosses, hb⟩ := bind_eq_ok_iff.mp (boundAt_eq_ok hb).2
    rw [measure] at hb
    obtain ⟨curves, hcurves, hb⟩ := bind_eq_ok_iff.mp hb
    cases hb
    cases hc
    obtain ⟨proper, he⟩ := Curve.epsilon_eq_ok he
    obtain ⟨es, hes, he⟩ := bind_eq_ok_iff.mp he
    cases he
    rw [(length_of_mapM hcurves).trans (length_of_mapM hlosses)] at hes
    exact ⟨proper, es, mapM_epsilonAt_eq_ok_iff.mpr ⟨curves, ⟨losses, hlosses, hcurves⟩, hes⟩, rfl⟩
  · rintro ⟨proper, es, h, rfl⟩
    have valid := validate_of_mapM_epsilonAt h
    obtain ⟨curves, ⟨losses, hlosses, hcurves⟩, hes⟩ := mapM_epsilonAt_eq_ok_iff.mp h
    have whole : (additive first rest).boundAt d =
        .ok (.curve (CompositionRule.sumCurve .double curves)) := by
      refine bind_eq_ok_iff.mpr ⟨(), valid, bind_eq_ok_iff.mpr ⟨losses, hlosses, ?_⟩⟩
      rw [measure]
      exact bind_eq_ok_iff.mpr ⟨curves, hcurves, rfl⟩
    have epsilon : (CompositionRule.sumCurve .double curves).epsilon delta = .ok (sum es) := by
      refine (if_pos proper).trans (bind_eq_ok_iff.mpr ⟨es, ?_, rfl⟩)
      rwa [(length_of_mapM hcurves).trans (length_of_mapM hlosses)]
    refine bind_eq_ok_iff.mpr ⟨(), valid, bind_eq_ok_iff.mpr ⟨_, whole, ?_⟩⟩
    exact bind_eq_ok_iff.mpr ⟨_, rfl, bind_eq_ok_iff.mpr ⟨_, epsilon, rfl⟩⟩

omit [Elementary] in
/-- The loss of a measurement with a delta fixed, at a valid distance. -/
theorem atDelta_boundAt (m : Measurement) (valid : Distance.validate d = .ok ()) :
    (m.atDelta p delta).boundAt d = do
      return .tuple [.upward p (← m.epsilonAt delta d), .upward p delta] := by
  rw [boundAt, valid, ok_bind]
  simp only [atDelta, epsilonAt, bind_assoc]

/-- Fixed first: each part has the share for its delta. -/
theorem atDelta_additive_eq_ok_iff {share : Binary .double} :
    (additive (first.atDelta .double share)
      (rest.map fun m => m.atDelta .double share)).boundAt d = .ok l ↔ ∃ es,
        (first :: rest).mapM (fun m => m.epsilonAt share d) = .ok es ∧
        l = .tuple [.float .double (sum es),
          .float .double (sum (List.replicate (first :: rest).length share))] := by
  -- The parts lose pairs of their epsilons and the share.
  have parts (valid : Distance.validate d = .ok ()) (losses : List Value) :
      ((first :: rest).map fun m => atDelta m .double share).mapM (fun m => m.boundAt d) =
          .ok losses ↔
        ∃ es, (first :: rest).mapM (fun m => m.epsilonAt share d) = .ok es ∧
          losses = es.map fun e => .tuple [.float .double e, .float .double share] := by
    have steps : (fun m : Measurement => m.boundAt d) ∘ (fun m => atDelta m .double share) =
        fun m : Measurement => m.epsilonAt share d >>= fun e =>
          .ok (.tuple [.float .double e, .float .double share]) := by
      funext m
      exact m.atDelta_boundAt valid
    rw [List.mapM_map, steps, mapM_bind_eq_ok_iff]
    simp only [mapM_eq_ok_map fun _ _ => rfl, Except.ok.injEq, eq_comm]
  have total (es : List (Binary .double)) :
      CompositionRule.additive.compose (first.atDelta .double share).outputMeasure
          (es.map fun e => .tuple [.float .double e, .float .double share]) = _ :=
    composeAdditive_share es share
  constructor
  · intro h
    obtain ⟨valid, h⟩ := boundAt_eq_ok h
    obtain ⟨losses, hlosses, h⟩ := bind_eq_ok_iff.mp h
    obtain ⟨es, hes, rfl⟩ := (parts valid losses).mp hlosses
    rw [total, length_of_mapM hes] at h
    exact ⟨es, hes, (Except.ok.inj h).symm⟩
  · rintro ⟨es, hes, rfl⟩
    have valid := validate_of_mapM_epsilonAt hes
    refine bind_eq_ok_iff.mpr ⟨(), valid, ?_⟩
    refine bind_eq_ok_iff.mpr ⟨_, (parts valid _).mpr ⟨es, hes, rfl⟩, ?_⟩
    rw [total, length_of_mapM hes]

/-- Fixing a delta commutes with additive composition. Composed first or fixed first at an even share,
measurements whose losses are curves of doubles make a measurement of the same domains, metric and
measure, and at every distance both fail or both have the same epsilon. The deltas are the one fixed
and the sum of its shares. -/
theorem fixDelta_commutes (agree : ∀ m ∈ rest, Agrees first m)
    (measure : first.outputMeasure = .smoothedMaxDivergence .double)
    (proper : Curve.isProbability delta)
    (proper' : Curve.isProbability (delta / ofNat (first :: rest).length)) :
    ∃ whole fixed parts split,
      compose .additive (first :: rest) = .ok whole ∧ whole.fixDelta delta = .ok fixed ∧
      (first :: rest).mapM (fun m => m.fixDelta (delta / ofNat (first :: rest).length)) =
        .ok parts ∧ compose .additive parts = .ok split ∧
      fixed.inputDomain = split.inputDomain ∧ fixed.outputDomain = split.outputDomain ∧
      fixed.inputMetric = split.inputMetric ∧ fixed.outputMeasure = split.outputMeasure ∧
      ∀ d,
        (∃ epsilon, fixed.map d = .ok (.tuple [.float .double epsilon, .float .double delta]) ∧
          split.map d = .ok (.tuple [.float .double epsilon, .float .double
            (sum (List.replicate (first :: rest).length
              (delta / ofNat (first :: rest).length)))])) ∨
        ∃ e e', fixed.map d = .error e ∧ split.map d = .error e' := by
  generalize hshare : delta / ofNat (first :: rest).length = share at proper' ⊢
  have measures : ∀ m ∈ first :: rest, m.outputMeasure = .smoothedMaxDivergence .double :=
    fun m hm => (metric_and_measure agree hm).2.trans measure
  have parts : (first :: rest).mapM (fun m => m.fixDelta share) =
      .ok ((first :: rest).map fun m => m.atDelta .double share) :=
    mapM_eq_ok_map fun m hm => fixDelta_eq_atDelta (measures m hm) proper'
  have agree' : ∀ m ∈ rest.map fun m => m.atDelta .double share,
      Agrees (first.atDelta .double share) m := by
    rw [List.forall_mem_map]
    exact fun m hm => (agree m hm).atDelta
  refine ⟨_, _, _, _, compose_additive agree, fixDelta_eq_atDelta measure proper, parts,
    compose_additive agree', rfl, ?_, rfl, rfl, fun d => ?_⟩
  · have outputs : (first :: rest).map (·.outputDomain) =
        ((first :: rest).map fun m => atDelta m .double share).map (·.outputDomain) := by
      rw [List.map_map]
      rfl
    exact congrArg Domain.product outputs
  -- Past the check of the type, both succeed where all the parts have an epsilon at the share.
  cases typed : checkDistanceType first.inputMetric d with
  | error e =>
    exact .inr ⟨e, e, congrArg (· >>= _) typed, congrArg (· >>= _) typed⟩
  | ok u =>
    have whole : ((additive first rest).atDelta .double delta).map d = _ :=
      congrArg (· >>= _) typed
    have split : (additive (first.atDelta .double share)
        (rest.map fun m => m.atDelta .double share)).map d = _ := congrArg (· >>= _) typed
    rw [whole, split, ok_bind, ok_bind]
    cases epsilons : (first :: rest).mapM (fun m => m.epsilonAt share d) with
    | ok es =>
      refine .inl ⟨sum es, (additive_atDelta_eq_ok_iff measure).mpr ⟨proper, es, ?_, rfl⟩,
        atDelta_additive_eq_ok_iff.mpr ⟨es, epsilons, rfl⟩⟩
      rwa [hshare]
    | error why =>
      have none : ∀ es, (first :: rest).mapM (fun m => m.epsilonAt share d) ≠ .ok es := by
        rw [epsilons]
        exact fun _ => nofun
      obtain ⟨e, he⟩ := exists_error fun l h => by
        obtain ⟨_, es, hes, _⟩ := (additive_atDelta_eq_ok_iff measure).mp h
        exact none es (hshare ▸ hes)
      obtain ⟨e', he'⟩ := exists_error fun l h => by
        obtain ⟨es, hes, _⟩ := atDelta_additive_eq_ok_iff.mp h
        exact none es hes
      exact .inr ⟨e, e', he, he'⟩

omit [Elementary] in
/-- Gaussian noise of scale one, released twice with a delta of one half. -/
theorem fixDelta_commutes_gaussians :
    letI := Elementary.machine
    ∃ m whole fixed parts split epsilon, gaussian .double 1 = .ok m ∧
      compose .additive [m, m] = .ok whole ∧ whole.fixDelta (1 / 2) = .ok fixed ∧
      [m, m].mapM (fun m => m.fixDelta (1 / 2 / ofNat 2)) = .ok parts ∧
      compose .additive parts = .ok split ∧
      fixed.map (.float .double 1) =
        .ok (.tuple [.float .double epsilon, .float .double (1 / 2)]) ∧
      split.map (.float .double 1) =
        .ok (.tuple [.float .double epsilon, .float .double (1 / 2)]) := by
  let _ := Elementary.machine
  have half : Curve.isProbability (1 / 2) := by decide +kernel
  have quarter : Curve.isProbability (1 / 2 / ofNat 2) := by decide +kernel
  obtain ⟨m, made⟩ : ∃ m, gaussian .double 1 = .ok m := by
    refine ⟨_, bind_eq_ok_iff.mpr ⟨(), if_pos ?_, rfl⟩⟩
    rw [convert_self]
    decide +kernel
  obtain ⟨metric, measure, same, e, he⟩ : m.inputMetric = .l2Sensitivity (.float .double) ∧
      m.outputMeasure = .smoothedMaxDivergence .double ∧ m.inputDomain.same m.inputDomain ∧
      ∃ e, m.epsilonAt (1 / 2 / ofNat 2) (.float .double 1) = .ok e := by
    obtain ⟨_, rfl⟩ := gaussian_eq_ok made
    have valid : Distance.validate (.float .double 1) = .ok () :=
      Distance.validate_numeric_iff.mpr (by decide +kernel)
    exact ⟨rfl, rfl, rfl, _, bind_eq_ok_iff.mpr ⟨_, bind_eq_ok_iff.mpr ⟨(), valid, rfl⟩,
      bind_eq_ok_iff.mpr ⟨_, rfl, (if_pos quarter).trans rfl⟩⟩⟩
  have agree : ∀ part ∈ [m], Agrees m part := List.forall_mem_singleton.mpr ⟨same, rfl, rfl⟩
  obtain ⟨whole, fixed, parts, split, hwhole, hfixed, hparts, hsplit, _, _, _, _, agreed⟩ :=
    fixDelta_commutes agree measure half quarter
  refine ⟨m, whole, fixed, parts, split, sum [e, e], made, hwhole, hfixed, hparts, hsplit, ?_⟩
  -- At the distance one there is an epsilon, so the two ways do not fail.
  cases (compose_additive agree).symm.trans hwhole
  cases (fixDelta_eq_atDelta (m := additive m [m]) measure half).symm.trans hfixed
  have epsilons : [m, m].mapM (fun m => m.epsilonAt (1 / 2 / ofNat 2) (.float .double 1)) =
      .ok [e, e] := by
    simp only [List.mapM_cons, he, List.mapM_nil, ok_bind]
    rfl
  have typed : checkDistanceType m.inputMetric (.float .double 1) = .ok () := by
    rw [metric]
    exact if_pos rfl
  have succeeds : ((additive m [m]).atDelta .double (1 / 2)).map (.float .double 1) =
      .ok (.tuple [.float .double (sum [e, e]), .float .double (1 / 2)]) :=
    bind_eq_ok_iff.mpr ⟨(), typed, (additive_atDelta_eq_ok_iff measure).mpr
      ⟨half, [e, e], epsilons, rfl⟩⟩
  have halves : sum (List.replicate 2 (1 / 2 / ofNat 2)) = (1 / 2 : Binary .double) := by
    decide +kernel
  rcases agreed (.float .double 1) with ⟨epsilon, hl, hl'⟩ | ⟨_, _, failed, _⟩
  · cases succeeds.symm.trans hl
    exact ⟨succeeds, halves ▸ hl'⟩
  · cases succeeds.symm.trans failed

end Measurement

end PrivateRelease
