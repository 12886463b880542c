import PrivateRelease.Proofs.Mechanism.Built

/-!
# The types of distances

The maps of built mechanisms are functions on values of any type. Each constructor keeps them in
agreement with the metric or measure it declares: at a distance of the input metric, the map gives a
distance of the output metric or a loss of the output measure, or fails as a map does.
-/

namespace PrivateRelease

namespace Value

theorem type_eq_numeric_iff {v : Value} {q : Numeric} :
    v.type = .numeric q ↔ ∃ x, v = numeric q x := by
  refine ⟨fun h => ?_, fun ⟨x, hx⟩ => by rw [hx]; rfl⟩
  cases v with
  | scalar p x =>
    simp only [type, Descriptor.numeric, Descriptor.primitive.injEq] at h
    subst h
    exact ⟨x, rfl⟩
  | vector p xs => simp [type, Descriptor.numeric, Descriptor.vector] at h
  | tuple items => simp [type, Descriptor.numeric] at h
  | curve c => simp [type, Descriptor.numeric, Curve.descriptor] at h

theorem type_eq_pair_iff {v : Value} {q : Numeric} :
    v.type = .pair (.numeric q) ↔ ∃ x y, v = tuple [numeric q x, numeric q y] := by
  refine ⟨fun h => ?_, fun ⟨x, y, hv⟩ => by rw [hv]; rfl⟩
  cases v with
  | scalar p x => simp [type, Descriptor.pair] at h
  | vector p xs => simp [type, Descriptor.pair, Descriptor.vector] at h
  | tuple items =>
    match items with
    | [] => simp [type, types, Descriptor.pair] at h
    | [a] => simp [type, types, Descriptor.pair] at h
    | [a, b] =>
      simp only [type, types, Descriptor.pair, Descriptor.tuple.injEq, List.cons.injEq,
        and_true] at h
      obtain ⟨x, rfl⟩ := type_eq_numeric_iff.mp h.1
      obtain ⟨y, rfl⟩ := type_eq_numeric_iff.mp h.2
      exact ⟨x, y, rfl⟩
    | a :: b :: c :: rest => simp [type, types, Descriptor.pair] at h
  | curve c => simp [type, Descriptor.pair, Curve.descriptor] at h

end Value

/-! ## Validation and comparison -/

/-- The error of a number that is no distance, or no delta. -/
def Error.IsUnusable : Error → Prop
  | badDistance (.delta _) => True
  | badDistance (.outOfRange _ _) => True
  | _ => False

theorem Error.IsUnusable.kind_eq {e : Error} (h : e.IsUnusable) : e.kind = .failedMap := by
  unfold IsUnusable at h
  split at h
  · rfl
  · rfl
  · cases h

/-- A map of distances that fails only at an unusable number. -/
abbrev Maps {α : Type} (P : α → Prop) : Except Error α → Prop := Yields Error.IsUnusable P

namespace Distance

theorem validate_numeric_iff {q : Numeric} {x : q.Carrier} :
    validate (.numeric q x) = .ok () ↔ isUsable (Numeric.toDouble x) := by
  unfold Value.numeric validate
  split
  · exact iff_of_true rfl ‹_›
  · exact iff_of_false nofun ‹_›

theorem validate_maps {q : Numeric} (x : q.Carrier) :
    Maps (fun _ => True) (validate (.numeric q x)) := by
  unfold Value.numeric validate
  split
  · trivial
  · trivial

theorem leScalar_maps {a b : Value} (h : a.type = b.type) :
    Maps (fun _ => True) (leScalar a b) := by
  unfold leScalar
  split
  · trivial
  · rw [if_pos h]
    trivial

theorem le_numeric_maps {q : Numeric} (x y : q.Carrier) :
    Maps (fun _ => True) (le (.numeric q x) (.numeric q y)) := by
  unfold le
  exact leScalar_maps rfl

theorem le_pair_maps {q : Numeric} (x y x' y' : q.Carrier) :
    Maps (fun _ => True)
      (le (.tuple [.numeric q x, .numeric q y]) (.tuple [.numeric q x', .numeric q y'])) := by
  simp only [le, leAll, List.length_cons, List.length_nil, if_true]
  refine (le_numeric_maps x x').bind fun b _ => ?_
  cases b with
  | false => trivial
  | true =>
    refine (le_numeric_maps y y').bind fun b _ => ?_
    cases b <;> trivial

end Distance

/-! ## Transformations -/

theorem Metric.distance_of_oneRecord? {m : Metric} {n : Nat} (h : m.oneRecord? = some n) :
    m.distance = .integer .u32 := by
  cases m <;> first | rfl | cases h

namespace Transformation

theorem distance_of_isSensitivity {p : Precision} {m : Metric} (h : isSensitivity p m = true) :
    m.distance = .float p := by
  cases m <;> simp [isSensitivity] at h <;> exact h

/-- Distances of the input metric are mapped to distances of the output metric. -/
def MapsDistances (t : Transformation) : Prop :=
  ∀ d, d.type = t.inputMetric.distanceType →
    Maps (fun l => l.type = t.outputMetric.distanceType) (t.boundAt d)

theorem MapsDistances.ofNumber {t : Transformation} {q : Numeric}
    (hm : t.inputMetric.distance = q)
    (h : ∀ x, Maps (fun l => l.type = t.outputMetric.distanceType)
      (t.stability (.numeric q x))) : t.MapsDistances := by
  intro d hd
  rw [Metric.distanceType, hm] at hd
  obtain ⟨x, rfl⟩ := Value.type_eq_numeric_iff.mp hd
  exact (Distance.validate_maps x).bind fun _ _ => h x

theorem MapsDistances.chain {second first t : Transformation} (hs : second.MapsDistances)
    (hf : first.MapsDistances) (h : Transformation.chain second first = .ok t) :
    t.MapsDistances := by
  obtain ⟨_, hm, rfl⟩ := chain_eq_ok h
  refine .ofNumber rfl fun x => (hf _ rfl).bind fun l hl => hs l ?_
  rw [hl, hm]

theorem Built.mapsDistances {t : Transformation} (h : t.Built) : t.MapsDistances := by
  induction h with
  | identity p => exact .ofNumber rfl fun n => rfl
  | clamp h =>
    obtain ⟨_, _, rfl⟩ := clamp_eq_ok h
    exact .ofNumber rfl fun n => rfl
  | boundedSum h =>
    obtain ⟨_, _, rfl⟩ := boundedSum_eq_ok h
    exact .ofNumber rfl fun n => rfl
  | boundedMean h =>
    obtain ⟨_, hs, _, _, ho, _, rfl⟩ := boundedMean_eq_ok h
    refine .ofNumber (Metric.distance_of_oneRecord? ho) fun n => ?_
    simp only [Metric.distanceType, distance_of_isSensitivity hs]
    rfl
  | count p => exact .ofNumber rfl fun n => rfl
  | chain _ _ h second first => exact second.chain first h

theorem MapsDistances.map {t : Transformation} (h : t.MapsDistances) {d : Value}
    (hd : d.type = t.inputMetric.distanceType) :
    Maps (fun l => l.type = t.outputMetric.distanceType) (t.map d) := by
  rw [Transformation.map, checkDistanceType, if_pos hd]
  exact h d hd

theorem MapsDistances.check {t : Transformation} (h : t.MapsDistances) {d bound : Value}
    (hd : d.type = t.inputMetric.distanceType) (hb : bound.type = t.outputMetric.distanceType) :
    Maps (fun _ => True) (t.check d bound) := by
  refine (h.map hd).bind fun l hl => ?_
  obtain ⟨x, rfl⟩ := Value.type_eq_numeric_iff.mp hl
  obtain ⟨y, rfl⟩ := Value.type_eq_numeric_iff.mp hb
  exact Distance.le_numeric_maps x y

end Transformation

end PrivateRelease
