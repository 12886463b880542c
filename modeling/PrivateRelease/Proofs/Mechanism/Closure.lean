import PrivateRelease.Proofs.Domain.Membership
import PrivateRelease.Proofs.Mechanism.Built
import PrivateRelease.Proofs.Number.Sums

/-!
# Closure of transformations

A chain hands values from link to link without checking them again. That is sound where every link
takes the members of its input domain to members of its output domain. Sums and means do so between
bounds that keep infinities of different signs apart; between others they can come to a NaN, which no
domain has.
-/

namespace PrivateRelease

/-- Floats are in order as numeric values where they are as floats. -/
theorem Binary.le_of_numeric {p : Precision} {x y : Binary p}
    (h : Numeric.le (q := .float p) x y) : x.le y :=
  Binary.le_iff.mpr (Numeric.le_iff.mp h)

namespace Transformation

/-- Takes every member of the input domain to a member of the output domain. -/
def Closed (t : Transformation) : Prop :=
  ∀ x, t.inputDomain.member x → ∃ y, t.function x = .ok y ∧ t.outputDomain.member y

/-- A single link: a sum or a mean only between summable bounds, and a mean of a word's number of
records. -/
inductive Tame : Transformation → Prop where
  | identity (p : Primitive) : Tame (.identity p)
  | clamp {p : Primitive} {lower upper : p.Carrier} {t : Transformation} :
      clamp p lower upper = .ok t → Tame t
  | boundedSum {p : Precision} {lower upper : Binary p} {t : Transformation} :
      Binary.Summable lower upper → boundedSum p lower upper = .ok t → Tame t
  | boundedMean {p : Precision} {lower upper : Binary p} {n : Nat} {inputMetric outputMetric : Metric}
      {t : Transformation} : Binary.Summable lower upper → n < 2 ^ 64 →
      boundedMean p lower upper n inputMetric outputMetric = .ok t → Tame t
  | count (p : Primitive) : Tame (.count p)

/-! ## Links -/

theorem between_eq_ok {q : Numeric} {lower upper : q.Carrier} {d : Domain}
    (h : between (.numeric q) lower upper = .ok d) :
    ∃ ordered, d = .interval q lower upper ordered := by
  simp only [between, Domain.ofValues, Value.scalar?_scalar, Domain.ofBounds] at h
  split at h
  · next hd =>
    cases h
    split at hd
    · next ordered =>
      cases hd
      exact ⟨ordered, rfl⟩
    · cases hd
  · cases h

/-- The members of vectors between two bounds. -/
theorem member_between_iff {q : Numeric} {lower upper : q.Carrier} {bounded : Domain}
    (h : between (.numeric q) lower upper = .ok bounded) {v : Value} :
    (Domain.vector bounded).member v ↔ ∃ xs : List q.Carrier, v = .vector (.numeric q) xs ∧
      ∀ x ∈ xs, Numeric.le lower x ∧ Numeric.le x upper := by
  obtain ⟨ordered, rfl⟩ := between_eq_ok h
  rw [Domain.member_vector_iff rfl]
  simp only [Domain.member_interval_iff]

theorem toVector_vector (p : Primitive) (xs : List p.Carrier) :
    (Value.vector p xs).toVector p = .ok xs := by
  rw [Value.toVector, Value.vector?_vector]

/-- A number moved to the nearest bound is between the bounds. -/
theorem clampTo_between {q : Numeric} {lower upper x : q.Carrier} (ordered : Numeric.le lower upper)
    (hx : Numeric.isNaN x = false) :
    Numeric.le lower (clampTo (p := .numeric q) lower upper x) ∧
      Numeric.le (clampTo (p := .numeric q) lower upper x) upper := by
  obtain ⟨i, k, hi, hk, hik⟩ := Numeric.le_iff.mp ordered
  obtain ⟨j, hj⟩ : ∃ j, Numeric.place x = some j := by
    cases hp : Numeric.place x with
    | none => rw [Numeric.isNaN_iff.mpr hp] at hx; cases hx
    | some j => exact ⟨j, rfl⟩
  have toLower : Primitive.order (p := .numeric q) x lower = some (compare j i) :=
    Numeric.order_eq_some_iff.mpr ⟨j, i, hj, hi, rfl⟩
  have toUpper : Primitive.order (p := .numeric q) x upper = some (compare j k) :=
    Numeric.order_eq_some_iff.mpr ⟨j, k, hj, hk, rfl⟩
  have stays {z : q.Carrier} {n : Int} (hz : Numeric.place z = some n) : Numeric.le z z :=
    Numeric.le_iff.mpr ⟨n, n, hz, hz, Int.le_refl n⟩
  unfold clampTo
  rw [toLower, toUpper]
  split
  · exact ⟨stays hi, ordered⟩
  next above =>
  have hij : i ≤ j := Int.compare_ne_lt.mp fun h => above (congrArg some h)
  split
  · exact ⟨ordered, stays hk⟩
  next below =>
  have hjk : j ≤ k := Int.compare_ne_gt.mp fun h => below (congrArg some h)
  exact ⟨Numeric.le_iff.mpr ⟨i, j, hi, hj, hij⟩, Numeric.le_iff.mpr ⟨j, k, hj, hk, hjk⟩⟩

theorem closed_identity (p : Primitive) : (identity p).Closed := fun x hx => ⟨x, rfl, hx⟩

theorem closed_clamp {p : Primitive} {lower upper : p.Carrier} {t : Transformation}
    (h : clamp p lower upper = .ok t) : t.Closed := by
  obtain ⟨bounded, hb, rfl⟩ := clamp_eq_ok h
  intro x hx
  obtain ⟨xs, rfl, numbers⟩ := (Domain.member_vector_iff rfl).mp hx
  refine ⟨.vector p (xs.map (clampTo lower upper)), ?_, ?_⟩
  · simp only [toVector_vector]
    rfl
  cases p with
  | numeric q =>
    obtain ⟨ordered, _⟩ := between_eq_ok hb
    refine (member_between_iff hb).mpr ⟨_, rfl, ?_⟩
    simp only [List.forall_mem_map]
    exact fun y hy => clampTo_between ordered (Domain.member_all_iff.mp (numbers y hy))
  | bool => cases hb
  | string => cases hb

/-- A sum adds records between its bounds. -/
theorem boundedSum_run {p : Precision} {lower upper : Binary p} {t : Transformation}
    (h : boundedSum p lower upper = .ok t) {v : Value} (hv : t.inputDomain.member v) :
    ∃ xs : List (Binary p), v = .vector (.numeric (.float p)) xs ∧
      (∀ x ∈ xs, lower.le x ∧ x.le upper) ∧ t.function v = .ok (.float p (Binary.sum xs)) := by
  obtain ⟨bounded, hb, rfl⟩ := boundedSum_eq_ok h
  obtain ⟨xs, rfl, within⟩ := (member_between_iff (q := .float p) hb).mp hv
  refine ⟨xs, rfl, fun x hx => (within x hx).imp Binary.le_of_numeric Binary.le_of_numeric, ?_⟩
  simp only [toVector_vector]
  rfl

theorem closed_boundedSum {p : Precision} {lower upper : Binary p} {t : Transformation}
    (summable : Binary.Summable lower upper) (h : boundedSum p lower upper = .ok t) : t.Closed := by
  intro x hx
  obtain ⟨xs, rfl, within, run⟩ := boundedSum_run h hx
  obtain ⟨_, _, rfl⟩ := boundedSum_eq_ok h
  exact ⟨_, run, Domain.member_all_iff.mpr (summable.isNaN_sum within)⟩

theorem length_of_sized {q : Numeric} {lower upper : q.Carrier} {ordered : Numeric.le lower upper}
    {n : Nat} {xs : List q.Carrier}
    (h : (Domain.sized (.vector (.interval q lower upper ordered)) n).member
      (.vector (.numeric q) xs)) : xs.length = n := by
  have element : (Domain.vector (.interval q lower upper ordered)).carrier.element? =
      some (.numeric q) := rfl
  have length : (Value.vector (.numeric q) xs).length (.numeric q) = .ok xs.length := if_pos rfl
  rw [Domain.member, element] at h
  dsimp only at h
  rw [length] at h
  exact beq_iff_eq.mp (Bool.and_eq_true_iff.mp h).1

/-- A mean divides the sum of as many records between its bounds as it is made for. -/
theorem boundedMean_run {p : Precision} {lower upper : Binary p} {n : Nat}
    {inputMetric outputMetric : Metric} {t : Transformation}
    (h : boundedMean p lower upper n inputMetric outputMetric = .ok t) {v : Value}
    (hv : t.inputDomain.member v) :
    ∃ xs : List (Binary p), v = .vector (.numeric (.float p)) xs ∧ xs.length = n ∧
      (∀ x ∈ xs, lower.le x ∧ x.le upper) ∧
      t.function v = .ok (.float p (Binary.sum xs / (.ofNat n : Binary .double).convert)) := by
  obtain ⟨_, _, _, bounded, _, hb, rfl⟩ := boundedMean_eq_ok h
  obtain ⟨xs, rfl, within⟩ :=
    (member_between_iff (q := .float p) hb).mp (Domain.member_of_sized hv)
  obtain ⟨ordered, rfl⟩ := between_eq_ok (q := .float p) hb
  refine ⟨xs, rfl, length_of_sized hv,
    fun x hx => (within x hx).imp Binary.le_of_numeric Binary.le_of_numeric, ?_⟩
  simp only [toVector_vector]
  rfl

theorem closed_boundedMean {p : Precision} {lower upper : Binary p} {n : Nat}
    {inputMetric outputMetric : Metric} {t : Transformation} (summable : Binary.Summable lower upper)
    (word : n < 2 ^ 64) (h : boundedMean p lower upper n inputMetric outputMetric = .ok t) :
    t.Closed := by
  intro x hx
  obtain ⟨xs, rfl, _, within, run⟩ := boundedMean_run h hx
  obtain ⟨hn, _, _, _, _, _, rfl⟩ := boundedMean_eq_ok h
  obtain ⟨r, hr, size, pos, finite⟩ :=
    Binary.exists_convert_ofNat p (Nat.pos_of_ne_zero hn) word
  refine ⟨_, run, Domain.member_all_iff.mpr ?_⟩
  rw [size]
  exact Binary.isNaN_div (summable.isNaN_sum within) hr pos finite false

theorem closed_count (p : Primitive) : (count p).Closed := by
  intro x hx
  obtain ⟨xs, rfl, _⟩ := (Domain.member_vector_iff rfl).mp hx
  refine ⟨.count xs.length, ?_, Domain.member_all_iff.mpr rfl⟩
  simp only [count, Value.length, if_true]
  rfl

theorem Tame.closed {t : Transformation} (h : t.Tame) : t.Closed := by
  cases h with
  | identity p => exact closed_identity p
  | clamp h => exact closed_clamp h
  | boundedSum summable h => exact closed_boundedSum summable h
  | boundedMean summable word h => exact closed_boundedMean summable word h
  | count p => exact closed_count p

/-! ## Chains -/

theorem invoke_of_member {t : Transformation} {x : Value} (h : t.inputDomain.member x) :
    t.invoke x = t.function x := by
  rw [invoke, checkMember, if_pos h]
  rfl

section Chain

variable {second first t : Transformation}

theorem Closed.chain (hs : second.Closed) (hf : first.Closed)
    (h : chain second first = .ok t) : t.Closed := by
  obtain ⟨meets, _, rfl⟩ := chain_eq_ok h
  intro x hx
  obtain ⟨y, hy, member⟩ := hf x hx
  rw [Domain.member_of_same meets] at member
  obtain ⟨z, hz, member⟩ := hs y member
  exact ⟨z, bind_eq_ok_iff.mpr ⟨y, hy, hz⟩, member⟩

/-- The check between two links, which a chain leaves out, would pass. -/
theorem Closed.chain_invoke (hf : first.Closed) (h : Transformation.chain second first = .ok t)
    (x : Value) : t.invoke x = first.invoke x >>= second.invoke := by
  obtain ⟨meets, _, rfl⟩ := chain_eq_ok h
  show (checkMember first.inputDomain x >>= fun _ => first.function x >>= second.function) =
    (checkMember first.inputDomain x >>= fun _ => first.function x) >>= second.invoke
  unfold checkMember
  split
  · next hx =>
    obtain ⟨y, hy, member⟩ := hf x hx
    rw [Domain.member_of_same meets] at member
    rw [ok_bind, ok_bind, hy]
    exact (invoke_of_member member).symm
  · rfl

end Chain

end Transformation

namespace Measurement

/-- A measurement in a chain is evaluated at what arrives there, whatever that is. -/
theorem chain_invoke_of_member {second m : Measurement} {first : Transformation}
    (h : chain second first = .ok m) {x y : Value} (hx : first.inputDomain.member x)
    (hy : first.function x = .ok y) : m.invoke x = second.function y := by
  obtain ⟨_, _, rfl⟩ := chain_eq_ok h
  have checked : checkMember first.inputDomain x = .ok () := if_pos hx
  show (Sampling.ofExcept (checkMember first.inputDomain x) >>= fun _ =>
    Sampling.ofExcept (first.function x) >>= second.function) = second.function y
  rw [checked, hy]
  rfl

theorem invoke_of_member {m : Measurement} {x : Value} (h : m.inputDomain.member x) :
    m.invoke x = m.function x := by
  rw [invoke, checkMember, if_pos h]
  rfl

end Measurement

/-- As between transformations, on every tape. -/
theorem Transformation.Closed.chain_release {second m : Measurement} {first : Transformation}
    (hf : first.Closed) (h : Measurement.chain second first = .ok m) (x : Value) :
    m.invoke x = Sampling.ofExcept (first.invoke x) >>= second.invoke := by
  obtain ⟨meets, _, made⟩ := Measurement.chain_eq_ok h
  by_cases hx : first.inputDomain.member x
  · obtain ⟨y, hy, member⟩ := hf x hx
    rw [Domain.member_of_same meets] at member
    rw [Measurement.chain_invoke_of_member h hx hy, Transformation.invoke_of_member hx, hy]
    exact (Measurement.invoke_of_member member).symm
  · have refused : checkMember first.inputDomain x =
        .error (.badInput (.notMember x.type first.inputDomain)) := if_neg hx
    rw [Transformation.invoke, refused, made, Measurement.invoke]
    dsimp only
    rw [refused]
    rfl

/-! ## Pipelines -/

/-- Links put together by chaining. -/
inductive Pipeline where
  | link (t : Transformation)
  | chain (second first : Pipeline)

namespace Pipeline

def links : Pipeline → List Transformation
  | link t => [t]
  | chain second first => second.links ++ first.links

/-- The transformation that the pipeline makes, if its links fit together. -/
def build : Pipeline → Except Error Transformation
  | link t => .ok t
  | chain second first => do (← second.build).chain (← first.build)

/-- One link after the other, with nothing checked. -/
def run : Pipeline → Value → Except Error Value
  | link t, x => t.function x
  | chain second first, x => first.run x >>= second.run

/-- The links that running evaluates, each with the value it is evaluated at. -/
def evaluations : Pipeline → Value → List (Transformation × Value)
  | link t, x => [(t, x)]
  | chain second first, x =>
    first.evaluations x ++
      match first.run x with
      | .ok y => second.evaluations y
      | .error _ => []

/-- One invocation after the other, each of which checks its argument. -/
def stepwise : Pipeline → Value → Except Error Value
  | link t, x => t.invoke x
  | chain second first, x => first.stepwise x >>= second.stepwise

variable {p second first : Pipeline} {t : Transformation}

theorem build_chain_eq_ok (h : (chain second first).build = .ok t) :
    ∃ u v, second.build = .ok u ∧ first.build = .ok v ∧ u.chain v = .ok t := by
  obtain ⟨u, hu, h⟩ := bind_eq_ok_iff.mp h
  obtain ⟨v, hv, h⟩ := bind_eq_ok_iff.mp h
  exact ⟨u, v, hu, hv, h⟩

/-- A built pipeline runs its links. -/
theorem function_eq_run (h : p.build = .ok t) (x : Value) : t.function x = p.run x := by
  induction p generalizing t x with
  | link u =>
    cases h
    rfl
  | chain second first ihs ihf =>
    obtain ⟨u, v, hu, hv, h⟩ := build_chain_eq_ok h
    obtain ⟨_, _, rfl⟩ := Transformation.chain_eq_ok h
    rw [run, ← ihf hv x, ← funext (ihs hu)]

/-- Only tame links. -/
def Tame (p : Pipeline) : Prop := ∀ u ∈ p.links, u.Tame

theorem tame_chain_iff : (chain second first).Tame ↔ second.Tame ∧ first.Tame :=
  List.forall_mem_append

theorem Tame.closed (tame : p.Tame) (h : p.build = .ok t) : t.Closed := by
  induction p generalizing t with
  | link u =>
    cases h
    exact (tame u (by simp [links])).closed
  | chain second first ihs ihf =>
    obtain ⟨seconds, firsts⟩ := tame_chain_iff.mp tame
    obtain ⟨u, v, hu, hv, h⟩ := build_chain_eq_ok h
    exact (ihs seconds hu).chain (ihf firsts hv) h

/-- Every link is evaluated at a member of its own input domain. -/
theorem Tame.member_of_mem_evaluations (tame : p.Tame) (h : p.build = .ok t) {x : Value}
    (hx : t.inputDomain.member x) {e : Transformation × Value} (he : e ∈ p.evaluations x) :
    e.1.inputDomain.member e.2 := by
  induction p generalizing t x with
  | link u =>
    cases h
    cases List.mem_singleton.mp he
    exact hx
  | chain second first ihs ihf =>
    obtain ⟨seconds, firsts⟩ := tame_chain_iff.mp tame
    obtain ⟨u, v, hu, hv, h⟩ := build_chain_eq_ok h
    obtain ⟨meets, _, rfl⟩ := Transformation.chain_eq_ok h
    obtain ⟨y, hy, member⟩ := firsts.closed hv x hx
    rw [Domain.member_of_same meets] at member
    rw [evaluations, ← function_eq_run hv, hy, List.mem_append] at he
    rcases he with he | he
    · exact ihf firsts hv hx he
    · exact ihs seconds hu member he

/-- Invoking the whole is invoking link after link, failures included. -/
theorem Tame.invoke_eq_stepwise (tame : p.Tame) (h : p.build = .ok t) (x : Value) :
    t.invoke x = p.stepwise x := by
  induction p generalizing t x with
  | link u =>
    cases h
    rfl
  | chain second first ihs ihf =>
    obtain ⟨seconds, firsts⟩ := tame_chain_iff.mp tame
    obtain ⟨u, v, hu, hv, h⟩ := build_chain_eq_ok h
    rw [(firsts.closed hv).chain_invoke h, stepwise, ihf firsts hv, funext (ihs seconds hu)]

/-- A pipeline of tame links takes the members of its input domain to members of its output domain and
evaluates every link within its domain; leaving out the checks in between, also before a measurement,
changes no outcome. -/
theorem Tame.domains_sound (tame : p.Tame) (h : p.build = .ok t) :
    (∀ x, t.inputDomain.member x →
      (∃ y, t.invoke x = .ok y ∧ t.outputDomain.member y) ∧
      ∀ e ∈ p.evaluations x, e.1.inputDomain.member e.2) ∧
    (∀ x, t.invoke x = p.stepwise x) ∧
    ∀ last m : Measurement, last.chain t = .ok m →
      ∀ x, m.invoke x = Sampling.ofExcept (p.stepwise x) >>= last.invoke := by
  refine ⟨fun x hx => ⟨?_, fun e he => tame.member_of_mem_evaluations h hx he⟩,
    tame.invoke_eq_stepwise h, fun last m hm x => ?_⟩
  · rw [Transformation.invoke_of_member hx]
    exact tame.closed h x hx
  · rw [← tame.invoke_eq_stepwise h]
    exact (tame.closed h).chain_release hm x

/-- The sum of what was clamped to be no less than zero, which may be infinite. -/
theorem Tame.domains_sound_sum_of_clamped :
    ∃ clamped sum t, Transformation.clamp (.numeric (.float .single)) (Binary.zero false)
        (Binary.infinite false) = .ok clamped ∧
      Transformation.boundedSum .single (.zero false) (.infinite false) = .ok sum ∧
      (chain (link sum) (link clamped)).build = .ok t ∧
      ∀ x, t.inputDomain.member x → ∃ y, t.invoke x = .ok y ∧ t.outputDomain.member y := by
  obtain ⟨clamped, sum, t, hc, hs, ht⟩ : ∃ clamped sum t,
      Transformation.clamp (.numeric (.float .single)) (Binary.zero false)
        (Binary.infinite false) = .ok clamped ∧
      Transformation.boundedSum .single (.zero false) (.infinite false) = .ok sum ∧
      (chain (link sum) (link clamped)).build = .ok t := ⟨_, _, _, rfl, rfl, rfl⟩
  have side : (Binary.zero false : Binary .single).OnSide false := Or.inl rfl
  have tame : (chain (link sum) (link clamped)).Tame := by
    refine tame_chain_iff.mpr ⟨?_, ?_⟩
    · simpa [Tame, links] using .boundedSum (.inr (.inl side)) hs
    · simpa [Tame, links] using .clamp hc
  exact ⟨clamped, sum, t, hc, hs, ht, fun x hx => ((Tame.domains_sound tame ht).1 x hx).1⟩

end Pipeline

open Binary (infinite)

/-- Noise is added to every float, a NaN included. -/
theorem Measurement.exists_laplace_function [Elementary] {p : Precision} {scale : Binary p}
    {m : Measurement} (h : laplace p scale = .ok m) (x : Binary p) (tape : Tape) :
    ∃ r, m.function (.float p x) tape = .ok r := by
  obtain ⟨isScale, rfl⟩ := laplace_eq_ok h
  have noise : Noise.laplace scale.convert tape =
      .ok (Noise.laplaceOf scale.convert tape.next.1.toDouble, tape.next.2) := by
    rw [Noise.laplace, Noise.checkScale, if_pos isScale]
    rfl
  have read : (Value.float p x).toScalar (.numeric (.float p)) = .ok x := by
    rw [Value.toScalar, Value.float, Value.numeric, Value.scalar?_scalar]
  show ∃ r, addNoise p (Noise.laplace scale.convert) (.float p x) tape = .ok r
  rw [addNoise, read]
  show ∃ r, (Noise.laplace scale.convert tape >>= fun n =>
    pure (Value.float p (Binary.convert (x.convert + n.1)), n.2)) = .ok r
  rw [noise]
  exact ⟨_, rfl⟩

/-- Between infinite bounds opposite infinities sum to a NaN. A measurement chained onto the sum
releases what it would refuse to be invoked on. -/
theorem Transformation.boundedSum_infinite_leaks :
    letI := Elementary.machine
    ∃ t last m, boundedSum .double (infinite true) (infinite false) = .ok t ∧
      Measurement.laplace .double (.number false 1 (by decide)) = .ok last ∧ last.chain t = .ok m ∧
      ∃ x, t.inputDomain.member x ∧ ∃ y, t.invoke x = .ok y ∧ t.outputDomain.member y = false ∧
        (∃ r, m.invoke x (.seeded 0) = .ok r) ∧ ∃ e, last.invoke y (.seeded 0) = .error e := by
  let _ := Elementary.machine
  obtain ⟨x, t, made, outputDomain, outputMetric, inside, sum⟩ : ∃ x t,
      boundedSum .double (infinite true) (infinite false) = .ok t ∧
      t.outputDomain = .all (.float .double) ∧ t.outputMetric = .l1Sensitivity (.float .double) ∧
      t.inputDomain.member x ∧ t.function x = .ok (.float .double Binary.indefinite) :=
    ⟨.vector (.numeric (.float .double)) [infinite false, infinite true], _, rfl, rfl, rfl,
      by decide, rfl⟩
  have outside : (Domain.all (.float .double)).member (.float .double Binary.indefinite) = false := by
    decide
  have scale : Measurement.checkScale
      (Binary.convert (.number false 1 (by decide) : Binary .double)) = .ok () := by
    rw [Binary.convert_self]
    exact if_pos (by decide)
  obtain ⟨last, noise⟩ : ∃ last,
      Measurement.laplace .double (.number false 1 (by decide)) = .ok last := by
    rw [Measurement.laplace, scale]
    exact ⟨_, rfl⟩
  obtain ⟨_, hl⟩ := Measurement.laplace_eq_ok noise
  obtain ⟨m, chained⟩ : ∃ m, last.chain t = .ok m := by
    rw [Measurement.chain, checkBoundary, outputDomain, outputMetric, hl]
    exact ⟨_, rfl⟩
  refine ⟨t, last, m, made, noise, chained, x, inside, _, (invoke_of_member inside).trans sum,
    ?_, ?_, ?_⟩
  · rw [outputDomain, outside]
  · rw [Measurement.chain_invoke_of_member chained inside sum]
    exact Measurement.exists_laplace_function noise _ _
  · rw [Measurement.invoke, hl]
    exact ⟨_, rfl⟩

end PrivateRelease
