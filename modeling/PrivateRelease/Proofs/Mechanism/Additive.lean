import PrivateRelease.Proofs.Mechanism.Signs
import PrivateRelease.Proofs.Number.Roundoff

/-!
# Additive losses

What the additive rule makes of losses that are numbers or pairs. They are added as doubles, to the
nearest one, and only the total is rounded up to the precision of the measure. So the result falls
short of the exact sum by what the additions round off, and a sum of several losses can be understated
by that much.
-/

namespace PrivateRelease

open Binary Precision

namespace CompositionRule

variable {p : Precision}

/-- What a component of an additive loss says of that component of the losses: a number that is not
below zero, and short of their exact sum by what the additions round off, a fraction for each. -/
structure Totals (xs : List (Binary p)) (y : Binary p) : Prop where
  side : y.OnSide false
  short : y.isFinite →
    (xs.map toRat).sum ≤ y.toRat + sumErrors (xs.map fun x => (x.convert : Binary .double))
  fraction : y.isFinite →
    (xs.map toRat).sum ≤ (1 + double.roundoff) ^ (xs.length - 1) * y.toRat

theorem sum_toRat_convert {xs : List (Binary p)} (finite : ∀ x ∈ xs, x.isFinite) :
    ((xs.map fun x => (x.convert : Binary .double)).map toRat).sum = (xs.map toRat).sum := by
  rw [List.map_map]
  exact congrArg List.sum (List.map_congr_left fun x hx => (convert_double (finite x hx)).2)

/-- Doubles have every number of the precision, so nothing but the additions rounds down. -/
theorem totals_sum {xs : List (Binary p)} (proper : ∀ x ∈ xs, x.isFinite ∧ x.OnSide false) :
    Totals xs ((Binary.sum (xs.map fun x => (x.convert : Binary .double))).roundUp p) := by
  have sides : ∀ x ∈ xs.map fun x => (x.convert : Binary .double), x.OnSide false := by
    simpa using fun x hx => (proper x hx).2.convert
  have exact := sum_toRat_convert fun x hx => (proper x hx).1
  have side := OnSide.sum sides
  obtain ⟨_, place⟩ := side.exists_standsAt
  refine ⟨side.roundUp p, fun finite => ?_, fun finite => ?_⟩
  · obtain ⟨_, up⟩ := place.le_roundUp finite
    have error := sum_error (xs.map fun x => (x.convert : Binary .double))
    rw [exact] at error
    linarith [(abs_le.mp error).1]
  · obtain ⟨total, up⟩ := place.le_roundUp finite
    have below := le_sum sides total
    rw [exact, List.length_map] at below
    exact below.trans
      (mul_le_mul_of_nonneg_left up (pow_nonneg double.one_add_roundoff_nonneg _))

theorem splitPairs_map (pairs : List (Binary p × Binary p)) :
    splitPairs (pairs.map fun x => .tuple [.float p x.1, .float p x.2]) =
      .ok (pairs.map fun x => x.1.convert, pairs.map fun x => x.2.convert) := by
  have read := mapM_map_ok (f := splitPair) (g := fun x : Binary p × Binary p =>
    .tuple [.float p x.1, .float p x.2]) (k := fun x => (x.1.convert, x.2.convert))
    (fun _ => rfl) pairs
  rw [splitPairs, read, ok_bind, List.unzip_eq_map, List.map_map, List.map_map]
  rfl

/-- Additive composition gives a loss for all finite losses none of which is below zero, and no
component of it is short of the exact sum by more than what the additions round off. -/
theorem additive_totals [Elementary] (p : Precision) :
    (∀ xs : List (Binary p), (∀ x ∈ xs, x.isFinite ∧ x.OnSide false) →
      ∃ y, additive.compose (.maxDivergence p) (xs.map fun x => .float p x) = .ok (.float p y) ∧
        Totals xs y) ∧
    ∀ pairs : List (Binary p × Binary p),
      (∀ x ∈ pairs, (x.1.isFinite ∧ x.1.OnSide false) ∧ x.2.isFinite ∧ x.2.OnSide false) →
      ∃ y z, additive.compose (.fixedSmoothedMaxDivergence p)
          (pairs.map fun x => .tuple [.float p x.1, .float p x.2]) =
          .ok (.tuple [.float p y, .float p z]) ∧
        Totals (pairs.map Prod.fst) y ∧ Totals (pairs.map Prod.snd) z := by
  constructor
  · intro xs proper
    refine ⟨_, ?_, totals_sum proper⟩
    have read := mapM_map_ok (f := Value.toDouble) (g := fun x : Binary p => .float p x)
      (k := fun x => x.convert) (fun _ => rfl) xs
    show (List.mapM Value.toDouble _ >>= _) = _
    rw [read]
    rfl
  · intro pairs proper
    have first : ∀ x ∈ pairs.map Prod.fst, x.isFinite ∧ x.OnSide false := by
      simpa using fun x y h => (proper (x, y) h).1
    have second : ∀ x ∈ pairs.map Prod.snd, x.isFinite ∧ x.OnSide false := by
      simpa using fun y x h => (proper (x, y) h).2
    refine ⟨_, _, ?_, totals_sum first, totals_sum second⟩
    show (splitPairs _ >>= _) = _
    rw [splitPairs_map, List.map_map, List.map_map]
    rfl

/-- Losses of one half, one half and a number that single precision would not add to them. -/
theorem additive_totals_halves :
    letI := Elementary.machine
    letI half : Binary .single := .number false (126 * single.binade) (by decide)
    letI tiny : Binary .single := .number false (100 * single.binade) (by decide)
    ∃ y, additive.compose (.maxDivergence .single)
        ([half, half, tiny].map fun x => .float .single x) = .ok (.float .single y) ∧
      Totals [half, half, tiny] y ∧ y.isFinite ∧ 1 < y.toRat := by
  let _ := Elementary.machine
  let half : Binary .single := .number false (126 * single.binade) (by decide)
  let tiny : Binary .single := .number false (100 * single.binade) (by decide)
  have proper : ∀ x ∈ [half, half, tiny], x.isFinite ∧ x.OnSide false := by
    simp only [List.forall_mem_cons]
    exact ⟨⟨rfl, .inl rfl⟩, ⟨rfl, .inl rfl⟩, ⟨rfl, .inl rfl⟩, List.forall_mem_nil _⟩
  obtain ⟨y, composed, totals⟩ := (additive_totals .single).1 [half, half, tiny] proper
  have made : Value.float .single
      ((Binary.sum [half.convert, half.convert, tiny.convert]).roundUp .single) =
        .float .single y := Except.ok.inj composed
  have total : _ = y := eq_of_heq (Value.scalar.inj made).2
  exact ⟨y, composed, totals, total ▸ by decide +kernel, total ▸ by decide +kernel⟩

/-- One and a number less than half of what doubles tell apart there add up to one. -/
theorem additive_understates :
    letI := Elementary.machine
    letI tiny : Binary .double := .number false (969 * double.binade) (by decide)
    (∀ x ∈ [one, tiny], x.isFinite ∧ x.OnSide false) ∧
      additive.compose (.maxDivergence .double) ([one, tiny].map fun x => .float .double x) =
        .ok (.float .double one) ∧
      (one : Binary .double).toRat < ([one, tiny].map toRat).sum := by
  let tiny : Binary .double := .number false (969 * double.binade) (by decide)
  have total : (Binary.sum [(one : Binary .double).convert, tiny.convert]).roundUp .double =
      one := by decide +kernel
  refine ⟨?_, congrArg (fun x => Except.ok (Value.float .double x)) total, by decide +kernel⟩
  simp only [List.forall_mem_cons]
  exact ⟨⟨rfl, .inl rfl⟩, ⟨rfl, .inl rfl⟩, List.forall_mem_nil _⟩

end CompositionRule

end PrivateRelease
