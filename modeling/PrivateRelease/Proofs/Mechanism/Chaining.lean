import PrivateRelease.Proofs.Mechanism.Losses

/-!
# The law of chains

A chain evaluates its second map without looking at the type of the distance that arrives there. Built
mechanisms agree on these types, so nothing is lost: the map of a chain is the first map, then the
second. Both ways to put three members in a chain make the same mechanism, or neither makes one.
-/

namespace PrivateRelease

/-- A check that is made twice in a row fails as it does the first time. -/
theorem bind_bind_self {ε α : Type} (check : Except ε Unit) (k : Unit → Except ε α) :
    (check >>= fun _ => check >>= k) = check >>= k := by
  cases check <;> rfl

namespace Transformation

variable {first second third t : Transformation}

/-- `first`, then `second`, whether or not they fit. -/
def joined (second first : Transformation) : Transformation where
  inputDomain := first.inputDomain
  outputDomain := second.outputDomain
  function v := first.function v >>= second.function
  inputMetric := first.inputMetric
  outputMetric := second.outputMetric
  stability d := first.boundAt d >>= second.boundAt

theorem chain_eq_ok_iff : second.chain first = .ok t ↔
    first.outputDomain.same second.inputDomain ∧ first.outputMetric = second.inputMetric ∧
      t = second.joined first := by
  constructor
  · exact chain_eq_ok
  · rintro ⟨domain, metric, rfl⟩
    have fits : checkBoundary first second.inputDomain second.inputMetric = .ok () := by
      simp [checkBoundary, domain, metric]
    rw [chain, fits]
    rfl

/-- The chain validates a distance on its own account, and its first member does so again. -/
theorem joined_boundAt (second first : Transformation) (d : Value) :
    (second.joined first).boundAt d = first.boundAt d >>= second.boundAt := by
  show (Distance.validate d >>= fun _ => first.boundAt d >>= second.boundAt) = _
  simp only [boundAt, bind_assoc]
  exact bind_bind_self _ _

theorem joined_assoc (third second first : Transformation) :
    third.joined (second.joined first) = (third.joined second).joined first := by
  have functions : ∀ v, (first.function v >>= second.function) >>= third.function =
      first.function v >>= fun x => second.function x >>= third.function := fun v => bind_assoc ..
  have stabilities : ∀ d, (second.joined first).boundAt d >>= third.boundAt =
      first.boundAt d >>= (third.joined second).boundAt := by
    intro d
    rw [joined_boundAt, bind_assoc, ← funext (joined_boundAt third second)]
  apply Transformation.mk.injEq .. |>.mpr
  exact ⟨rfl, rfl, funext functions, rfl, rfl, funext stabilities⟩

/-- Whichever two of three members are put together first. -/
theorem chain_assoc : second.chain first >>= third.chain = .ok t ↔
    third.chain second >>= (fun last => last.chain first) = .ok t := by
  simp only [bind_eq_ok_iff, chain_eq_ok_iff]
  constructor
  · rintro ⟨_, ⟨domain, metric, rfl⟩, domain', metric', rfl⟩
    exact ⟨_, ⟨domain', metric', rfl⟩, domain, metric, joined_assoc third second first⟩
  · rintro ⟨_, ⟨domain', metric', rfl⟩, domain, metric, rfl⟩
    exact ⟨_, ⟨domain, metric, rfl⟩, domain', metric', (joined_assoc third second first).symm⟩

/-! ## Maps -/

theorem map_of_type {d : Value} (h : d.type = t.inputMetric.distanceType) : t.map d = t.boundAt d := by
  rw [map, checkDistanceType, if_pos h]
  rfl

/-- What comes after the map is at a distance of the output metric. -/
theorem MapsDistances.map_bind {α : Type} (ht : t.MapsDistances) {k k' : Value → Except Error α}
    (hk : ∀ l, l.type = t.outputMetric.distanceType → k l = k' l) (d : Value) :
    t.map d >>= k = t.map d >>= k' := by
  by_cases hd : d.type = t.inputMetric.distanceType
  · have typed := ht.map hd
    cases hl : t.map d with
    | error why => rfl
    | ok l =>
      rw [hl] at typed
      exact hk l typed
  · rw [Transformation.map, checkDistanceType, if_neg hd]
    rfl

theorem joined_map (hf : first.MapsDistances) (meets : first.outputMetric = second.inputMetric)
    (d : Value) : (second.joined first).map d = first.map d >>= second.map := by
  have unchecked : (second.joined first).map d = first.map d >>= second.boundAt := by
    rw [map, joined_boundAt, map, bind_assoc]
    rfl
  rw [unchecked]
  exact hf.map_bind (fun l hl => (map_of_type (meets ▸ hl)).symm) d

theorem joined_check (hf : first.MapsDistances) (meets : first.outputMetric = second.inputMetric)
    (d bound : Value) :
    (second.joined first).check d bound = first.map d >>= fun l => second.check l bound := by
  rw [check, joined_map hf meets, bind_assoc]
  rfl

end Transformation

/-! ## Measurements -/

namespace Measurement

variable {first second : Transformation} {last m : Measurement}

/-- `first`, then `last`, whether or not they fit. -/
def joined (last : Measurement) (first : Transformation) : Measurement where
  inputDomain := first.inputDomain
  outputDomain := last.outputDomain
  function v := Sampling.ofExcept (first.function v) >>= last.function
  inputMetric := first.inputMetric
  outputMeasure := last.outputMeasure
  privacy d := first.boundAt d >>= last.boundAt

theorem chain_eq_ok_iff : last.chain first = .ok m ↔
    first.outputDomain.same last.inputDomain ∧ first.outputMetric = last.inputMetric ∧
      m = last.joined first := by
  constructor
  · exact chain_eq_ok
  · rintro ⟨domain, metric, rfl⟩
    have fits : checkBoundary first last.inputDomain last.inputMetric = .ok () := by
      simp [checkBoundary, domain, metric]
    rw [chain, fits]
    rfl

theorem joined_boundAt (last : Measurement) (first : Transformation) (d : Value) :
    (last.joined first).boundAt d = first.boundAt d >>= last.boundAt := by
  show (Distance.validate d >>= fun _ => first.boundAt d >>= last.boundAt) = _
  simp only [Transformation.boundAt, bind_assoc]
  exact bind_bind_self _ _

/-- What fails before anything is drawn fails as it is. -/
theorem ofExcept_bind {α β : Type} (r : Except Error α) (f : α → Except Error β) :
    Sampling.ofExcept (r >>= f) = Sampling.ofExcept r >>= fun x => Sampling.ofExcept (f x) := by
  funext tape
  cases r <;> rfl

theorem joined_assoc (last : Measurement) (second first : Transformation) :
    last.joined (second.joined first) = (last.joined second).joined first := by
  have functions : ∀ v, Sampling.ofExcept (first.function v >>= second.function) >>= last.function =
      Sampling.ofExcept (first.function v) >>= fun x =>
        Sampling.ofExcept (second.function x) >>= last.function := by
    intro v
    rw [ofExcept_bind, bind_assoc]
  have privacies : ∀ d, (second.joined first).boundAt d >>= last.boundAt =
      first.boundAt d >>= (last.joined second).boundAt := by
    intro d
    rw [Transformation.joined_boundAt, bind_assoc, ← funext (joined_boundAt last second)]
  apply Measurement.mk.injEq .. |>.mpr
  exact ⟨rfl, rfl, funext functions, rfl, rfl, funext privacies⟩

theorem chain_assoc : second.chain first >>= last.chain = .ok m ↔
    last.chain second >>= (fun last => last.chain first) = .ok m := by
  simp only [bind_eq_ok_iff, chain_eq_ok_iff, Transformation.chain_eq_ok_iff]
  constructor
  · rintro ⟨_, ⟨domain, metric, rfl⟩, domain', metric', rfl⟩
    exact ⟨_, ⟨domain', metric', rfl⟩, domain, metric, joined_assoc last second first⟩
  · rintro ⟨_, ⟨domain', metric', rfl⟩, domain, metric, rfl⟩
    exact ⟨_, ⟨domain, metric, rfl⟩, domain', metric', (joined_assoc last second first).symm⟩

theorem map_of_type {d : Value} (h : d.type = m.inputMetric.distanceType) : m.map d = m.boundAt d := by
  rw [map, checkDistanceType, if_pos h]
  rfl

theorem joined_map (hf : first.MapsDistances) (meets : first.outputMetric = last.inputMetric)
    (d : Value) : (last.joined first).map d = first.map d >>= last.map := by
  have unchecked : (last.joined first).map d = first.map d >>= last.boundAt := by
    rw [map, joined_boundAt, Transformation.map, bind_assoc]
    rfl
  rw [unchecked]
  exact hf.map_bind (fun l hl => (map_of_type (meets ▸ hl)).symm) d

theorem joined_check (hf : first.MapsDistances) (meets : first.outputMetric = last.inputMetric)
    (d bound : Value) :
    (last.joined first).check d bound = first.map d >>= fun l => last.check l bound := by
  rw [check, joined_map hf meets, bind_assoc]
  rfl

end Measurement

/-- A built transformation and whatever fits after it are put in a chain whose map is the first map and
then the second, failures included, and whose check is the second one's at what the first map gives.
Three members, the last a transformation or a measurement, make one and the same mechanism both ways,
or none. -/
theorem Mechanism.chain_law :
    (∀ first second : Transformation, first.Built →
      first.outputDomain.same second.inputDomain → first.outputMetric = second.inputMetric →
      ∃ t, second.chain first = .ok t ∧ ∀ d, t.map d = first.map d >>= second.map ∧
        ∀ bound, t.check d bound = first.map d >>= fun l => second.check l bound) ∧
    (∀ (first : Transformation) (last : Measurement), first.Built →
      first.outputDomain.same last.inputDomain → first.outputMetric = last.inputMetric →
      ∃ m, last.chain first = .ok m ∧ ∀ d, m.map d = first.map d >>= last.map ∧
        ∀ bound, m.check d bound = first.map d >>= fun l => last.check l bound) ∧
    (∀ first second third t : Transformation, second.chain first >>= third.chain = .ok t ↔
      third.chain second >>= (fun last => last.chain first) = .ok t) ∧
    ∀ (first second : Transformation) (last m : Measurement),
      second.chain first >>= last.chain = .ok m ↔
        last.chain second >>= (fun last => last.chain first) = .ok m := by
  refine ⟨fun first second hf domain metric => ?_, fun first last hf domain metric => ?_,
    fun _ _ _ _ => Transformation.chain_assoc, fun _ _ _ _ => Measurement.chain_assoc⟩
  · have maps := hf.mapsDistances
    refine ⟨second.joined first, Transformation.chain_eq_ok_iff.mpr ⟨domain, metric, rfl⟩, ?_⟩
    exact fun d => ⟨Transformation.joined_map maps metric d,
      fun bound => Transformation.joined_check maps metric d bound⟩
  · have maps := hf.mapsDistances
    refine ⟨last.joined first, Measurement.chain_eq_ok_iff.mpr ⟨domain, metric, rfl⟩, ?_⟩
    exact fun d => ⟨Measurement.joined_map maps metric d,
      fun bound => Measurement.joined_check maps metric d bound⟩

/-- A sum of what was clamped, and noise on a count. -/
theorem Mechanism.chain_law_sum_of_clamped_and_noisy_count :
    letI := Elementary.machine
    (∃ clamped sum t, Transformation.clamp (.numeric (.float .single)) (Binary.zero false)
        (Binary.infinite false) = .ok clamped ∧
      Transformation.boundedSum .single (.zero false) (.infinite false) = .ok sum ∧
      sum.chain clamped = .ok t ∧ ∀ d, t.map d = clamped.map d >>= sum.map) ∧
    ∃ noise m, Measurement.geometric .u32 (.number false 1 (by decide)) = .ok noise ∧
      noise.chain (Transformation.count .bool) = .ok m ∧
      ∀ d, m.map d = (Transformation.count .bool).map d >>= noise.map := by
  let _ := Elementary.machine
  obtain ⟨clamped, sum, hc, hs, domain, metric⟩ : ∃ clamped sum,
      Transformation.clamp (.numeric (.float .single)) (Binary.zero false)
        (Binary.infinite false) = .ok clamped ∧
      Transformation.boundedSum .single (.zero false) (.infinite false) = .ok sum ∧
      clamped.outputDomain.same sum.inputDomain ∧ clamped.outputMetric = sum.inputMetric :=
    ⟨_, _, rfl, rfl, rfl, rfl⟩
  obtain ⟨noise, hn, counts, distances⟩ : ∃ noise,
      Measurement.geometric .u32 (.number false 1 (by decide)) = .ok noise ∧
      (Transformation.count .bool).outputDomain.same noise.inputDomain ∧
      (Transformation.count .bool).outputMetric = noise.inputMetric := ⟨_, rfl, rfl, rfl⟩
  obtain ⟨t, ht, tMaps⟩ :=
    Mechanism.chain_law.1 clamped sum (.clamp hc) domain metric
  obtain ⟨m, hm, mMaps⟩ :=
    Mechanism.chain_law.2.1 (.count .bool) noise (.count .bool) counts distances
  exact ⟨⟨clamped, sum, t, hc, hs, ht, fun d => (tMaps d).1⟩, noise, m, hn, hm,
    fun d => (mMaps d).1⟩

end PrivateRelease
