import PrivateRelease.Proofs.Number.Upward
import PrivateRelease.Proofs.Mechanism.Chaining
import PrivateRelease.Proofs.Mechanism.Signs

/-!
# Populations

The larger the population that a sample is drawn from, the less the sample loses, and never more than
without sampling: the fraction sampled falls, every step of the formula rises with the fraction, and
the minimum with the plain loss hides a product of no records with infinity, the one step that has no
result.

Nothing marks a measurement as amplified. Amplified again with the same population it is taken to be
sampled once more, though its records were drawn only once.
-/

namespace PrivateRelease

/-! ## Fractions of a population -/

open Precision in
/-- Far from zero and from infinity, for ranks of words other than zero. -/
theorem Precision.quotientRank_words {r k : Nat} (finite : r < double.infinity)
    (finite' : k < double.infinity) (low : 2 ^ double.scale ≤ double.units r)
    (high : double.units r ≤ 2 ^ (double.scale + 64)) (low' : 2 ^ double.scale ≤ double.units k)
    (high' : double.units k ≤ 2 ^ (double.scale + 64)) :
    0 < double.quotientRank r k ∧ double.quotientRank r k < double.infinity := by
  have units : 0 < double.units k := Nat.lt_of_lt_of_le (Nat.two_pow_pos _) low'
  have split : 2 ^ (double.scale - 64) * 2 ^ (double.scale + 64) =
      2 ^ double.scale * 2 ^ double.scale := by
    rw [← Nat.pow_add, ← Nat.pow_add]
    exact congrArg (2 ^ ·) (by decide)
  have least : 2 ^ (double.scale - 64) * double.units k ≤ double.units r * 2 ^ double.scale :=
    calc 2 ^ (double.scale - 64) * double.units k
        ≤ 2 ^ (double.scale - 64) * 2 ^ (double.scale + 64) := Nat.mul_le_mul_left _ high'
      _ = 2 ^ double.scale * 2 ^ double.scale := split
      _ ≤ double.units r * 2 ^ double.scale := Nat.mul_le_mul_right _ low
  have most : double.units r * 2 ^ double.scale < 2 ^ (double.scale + 65) * double.units k :=
    calc double.units r * 2 ^ double.scale
        ≤ 2 ^ (double.scale + 64) * double.units k := Nat.mul_le_mul high low'
      _ < 2 ^ (double.scale + 65) * double.units k :=
        Nat.mul_lt_mul_of_pos_right (Nat.pow_lt_pow_right (by omega) (by omega)) units
  have above := le_nearest (p := double) units (by decide) least
  have below := nearest_le_of_lt (p := double) units (by decide) most
  rw [quotientRank, if_neg (Nat.ne_of_lt finite), if_neg (Nat.ne_of_lt finite')]
  exact ⟨Nat.lt_of_lt_of_le (by decide) above, Nat.lt_of_le_of_lt below (by decide)⟩

namespace Binary

open Precision

/-- Above zero and not infinite. -/
structure IsFraction (x : Binary .double) : Prop where
  pos : Binary.lt 0 x
  finite : x.isInfinite = false

variable {x y : Binary .double} {n size size' : Nat}

theorem IsFraction.rises (h : x.IsFraction) : x.Rises x := .refl (onSide_of_pos h.pos)

/-- Neither zero nor infinity, so a fraction of anything but a NaN is not one. -/
theorem IsFraction.isNaN_mul (h : x.IsFraction) (hy : y.isNaN = false) : (x * y).isNaN = false := by
  refine Binary.isNaN_mul h.rises.isNaN_left hy (fun zero => ?_) fun _ => h.finite
  rw [isZero_of_pos h.pos] at zero
  cases zero

theorem standsAt_positive {r : Nat} (bound : r ≤ double.infinity) :
    (number false r bound : Binary .double).StandsAt r :=
  .number bound (.inl rfl)

theorem isFraction_of_standsAt {r : Nat} (h : x.StandsAt r) (number : x.isNaN = false) (pos : 0 < r)
    (finite : r < double.infinity) : x.IsFraction := by
  refine ⟨((standsAt_zero false).lt_iff h rfl number).mpr pos, ?_⟩
  cases h with
  | nan => cases number
  | number => simpa [isInfinite] using Nat.ne_of_lt finite

/-- The fraction that a sample is of its population. -/
theorem isFraction_ofNat_div (pos : 0 < n) (word : n < 2 ^ 64) (pos' : 0 < size)
    (word' : size < 2 ^ 64) : (ofNat n / ofNat size : Binary .double).IsFraction := by
  obtain ⟨r, bound, numerator, finite, low, high⟩ := exists_ofNat pos word
  obtain ⟨k, bound', denominator, finite', low', high'⟩ := exists_ofNat pos' word'
  obtain ⟨above, below⟩ := quotientRank_words finite finite' low high low' high'
  have units : 0 < double.units k := Nat.lt_of_lt_of_le (Nat.two_pow_pos _) low'
  have rank : 0 < k := Nat.pos_of_ne_zero fun zero => by
    rw [zero, units_zero] at units
    exact Nat.lt_irrefl 0 units
  have quotient := (standsAt_positive bound).div rank bound'
  rw [numerator, denominator]
  exact isFraction_of_standsAt quotient (isNaN_div rfl bound' rank finite' false) above below

/-- The larger of two divisors from one on makes the smaller quotient. -/
theorem div_under {r : Nat} (bound : r ≤ double.infinity) (finite : r ≠ double.infinity)
    (one : (1 : Binary .double).Rises x) (h : x.Rises y) :
    (number false r bound / y).Under (number false r bound / x) := by
  have order := h.le
  obtain ⟨k, bound', rank, rfl⟩ := one.exists_of_one
  obtain ⟨k', bound'', rank', rfl⟩ := exists_of_onSide h.right (h.isZero_right one.isZero_of_one)
  have ranks : k ≤ k' := by simpa [Binary.le, position] using order
  have stands := standsAt_positive bound
  exact ⟨_, _, stands.div rank' bound'', stands.div rank bound',
    quotientRank_anti finite rank ranks bound''⟩

/-- A larger population makes a smaller fraction of the same sample. -/
theorem ofNat_div_rises (pos : 0 < n) (word : n < 2 ^ 64) (pos' : 0 < size) (le : size ≤ size')
    (word' : size' < 2 ^ 64) :
    (ofNat n / ofNat size' : Binary .double).Rises (ofNat n / ofNat size) := by
  have fraction := isFraction_ofNat_div pos word pos' (Nat.lt_of_le_of_lt le word')
  have fraction' := isFraction_ofNat_div pos word (Nat.lt_of_lt_of_le pos' le) word'
  obtain ⟨r, bound, numerator, finite, _⟩ := exists_ofNat pos word
  have sizes : (ofNat size : Binary .double).Rises (ofNat size') :=
    rises_ofInt (Int.natCast_nonneg _) (Int.ofNat_le.mpr le)
  have under := div_under bound (Nat.ne_of_lt finite) (one_rises_ofNat pos') sizes
  rw [← numerator] at under
  exact under.rises fraction'.rises.isNaN_left fraction.rises.isNaN_left

end Binary

/-! ## Sampled losses -/

section Sampled

open Binary

variable [Elementary] {p : Precision} {ratio ratio' : Binary .double}

/-- What one record of a sample loses, by what it loses without sampling. -/
def sampledLoss (ratio one : Binary .double) : Binary .double :=
  Elementary.ln1p (ratio * Elementary.expm1 one)

/-- What `records` records lose if one loses `one`, at most `plain`. -/
def sampledBound (ratio records : Binary .double) (one plain : Binary p) : Binary p :=
  ((records * sampledLoss ratio one.convert).min plain.convert).roundUp p

variable (mono : Elementary.IsMonotone)

include mono

theorem sampledLoss_rises (fraction : ratio.IsFraction) (fraction' : ratio'.IsFraction)
    (h : ratio.Rises ratio') {x y : Binary .double} (le : x.Rises y) :
    (sampledLoss ratio x).Rises (sampledLoss ratio' y) := by
  have cost := mono.expm1_rises le
  have product := (h.under.mul cost.under).rises (fraction.isNaN_mul cost.isNaN_left)
    (fraction'.isNaN_mul cost.isNaN_right)
  exact mono.ln1p_rises product

variable {records : Binary .double} {one one' plain : Binary p}

/-- No records may lose infinitely much each, so of the product it is only known where it stands. -/
theorem product_under (count : records.OnSide false) (fraction : ratio.IsFraction)
    (fraction' : ratio'.IsFraction) (h : ratio.Rises ratio') (le : one.Rises one') :
    (records * sampledLoss ratio one.convert).Under (records * sampledLoss ratio' one'.convert) :=
  (Rises.refl count).under.mul (sampledLoss_rises mono fraction fraction' h le.convert).under

/-- A larger fraction of the population loses no less. -/
theorem sampledBound_rises (count : records.OnSide false) (fraction : ratio.IsFraction)
    (fraction' : ratio'.IsFraction) (h : ratio.Rises ratio') (side : one.OnSide false)
    (side' : plain.OnSide false) :
    (sampledBound ratio records one plain).Rises (sampledBound ratio' records one plain) := by
  have product := product_under mono count fraction fraction' h (.refl side)
  exact (Rises.min_right product (Rises.refl side').convert).roundUp p

/-- A sample loses no more than is lost without sampling. -/
theorem sampledBound_rises_plain (count : records.OnSide false) (fraction : ratio.IsFraction)
    (side : one.OnSide false) (side' : plain.OnSide false) :
    (sampledBound ratio records one plain).Rises plain := by
  obtain ⟨r, _, product, _⟩ :=
    product_under mono count fraction fraction fraction.rises (.refl side)
  have wide := (Rises.refl side').convert (q := .double)
  obtain ⟨k, hk⟩ := wide.side.exists_standsAt
  have least := (product.min_under_right hk).rises (isNaN_min (.inr wide.isNaN_left))
    wide.isNaN_left
  have rounded := least.roundUp p
  rwa [roundUp_convert side'.isNaN_eq] at rounded

/-- Sampling that does not lower what one record loses cannot lower anything by being done again. -/
theorem sampledBound_rises_again (count : records.OnSide false) (fraction : ratio.IsFraction)
    (le : one.Rises one') (side : plain.OnSide false) :
    (sampledBound ratio records one plain).Rises
      (sampledBound ratio records one' (sampledBound ratio records one plain)) := by
  have product := product_under mono count fraction fraction fraction.rises le
  have ⟨r, _, hr, _⟩ := product
  have wide := (Rises.refl side).convert (q := .double)
  obtain ⟨k, hk⟩ := wide.side.exists_standsAt
  have least := (hr.min hk).onSide (isNaN_min (.inr wide.isNaN_left))
  have whole := rises_roundUp least p
  have both := ((hr.min_under_left hk).trans product).le_min whole.under
  exact (both.rises least.isNaN_eq (isNaN_min (.inr whole.isNaN_right))).roundUp p

end Sampled

/-! ## Sizes -/

/-- No built transformation takes samples of no records. -/
theorem Transformation.Built.size_pos {t : Transformation} (h : t.Built) {records : Domain} {n : Nat}
    (sized : t.inputDomain.sizedRecords? = some (records, n)) : 0 < n := by
  induction h with
  | identity => cases sized
  | count => cases sized
  | clamp h =>
    obtain ⟨_, _, rfl⟩ := clamp_eq_ok h
    cases sized
  | boundedSum h =>
    obtain ⟨_, _, rfl⟩ := boundedSum_eq_ok h
    cases sized
  | boundedMean h =>
    obtain ⟨pos, _, _, _, _, _, rfl⟩ := boundedMean_eq_ok h
    cases sized
    exact Nat.pos_of_ne_zero pos
  | chain _ _ h _ first =>
    obtain ⟨_, _, rfl⟩ := chain_eq_ok h
    exact first sized

theorem Metric.isDataset_iff {m : Metric} : m.isDataset ↔ ∃ unit, m.oneRecord? = some unit := by
  cases m <;> simp [isDataset, oneRecord?]

namespace Measurement

open Binary

variable [Elementary] {m once : Measurement} {p : Precision} {unit : Nat} {ratio : Binary .double}

theorem Built.size_pos (h : m.Built) {records : Domain} {n : Nat}
    (sized : m.inputDomain.sizedRecords? = some (records, n)) : 0 < n := by
  induction h with
  | laplace h =>
    obtain ⟨_, rfl⟩ := laplace_eq_ok h
    cases sized
  | gaussian h =>
    obtain ⟨_, rfl⟩ := gaussian_eq_ok h
    cases sized
  | geometric h =>
    obtain ⟨_, rfl⟩ := geometric_eq_ok h
    cases sized
  | chain _ first h _ =>
    obtain ⟨_, _, rfl⟩ := chain_eq_ok h
    exact first.size_pos sized
  | compose _ _ h parts =>
    obtain ⟨first, _, rfl, _, _, rfl⟩ := compose_eq_ok h
    exact parts first List.mem_cons_self sized
  | amplify _ h part =>
    obtain ⟨_, _, _, _, _, _, _, _, _, rfl⟩ := amplify_eq_ok h
    exact part sized
  | fixDelta _ h part =>
    obtain ⟨_, _, _, rfl⟩ := fixDelta_eq_ok h
    exact part sized

/-! ## Amplified maps -/

/-- `m` on a sample that is the fraction `ratio` of its population. -/
def sampled (m : Measurement) (p : Precision) (unit : Nat) (ratio : Binary .double) : Measurement :=
  { m with privacy := m.amplifiedLoss p unit ratio }

theorem amplify_eq_sampled {records : Domain} {sample population : Nat}
    (sized : m.inputDomain.sizedRecords? = some (records, sample)) (pos : 0 < sample)
    (within : sample ≤ population) (measure : m.outputMeasure = .maxDivergence p)
    (one : m.inputMetric.oneRecord? = some unit) :
    m.amplify population = .ok (m.sampled p unit (ofNat sample / ofNat population)) := by
  have size : ¬(sample = 0 ∨ population < sample) := by omega
  simp only [amplify, sampled, sized, if_neg size, measure, one]
  rfl

omit [Elementary] in
theorem map_count (counts : m.inputMetric.distance = .integer .u32) (n : Bounded .u32) :
    m.map (.integer .u32 n) = m.boundAt (.integer .u32 n) :=
  map_of_type (congrArg Descriptor.numeric counts).symm

/-- `n` changed records, of which each is worth `unit`. -/
def changed (unit : Nat) (n : Bounded .u32) : Binary .double := ofInt ((n.val + unit - 1) / unit)

omit [Elementary] in
theorem changed_onSide (pos : 0 < unit) (n : Bounded .u32) : (changed unit n).OnSide false := by
  have least : 0 ≤ n.val := n.least_le
  exact onSide_ofInt (Int.ediv_nonneg (by omega) (by omega))

theorem sampled_boundAt (ratio : Binary .double) {n : Bounded .u32} {one plain : Binary p}
    (single : m.boundAt (.count unit) = .ok (.float p one))
    (whole : m.boundAt (.integer .u32 n) = .ok (.float p plain)) :
    (m.sampled p unit ratio).boundAt (.integer .u32 n) =
      .ok (.float p (sampledBound ratio (changed unit n) one plain)) := by
  show (Distance.validate _ >>= fun _ => m.amplifiedLoss p unit ratio _) = _
  rw [Distance.validate_count, ok_bind, amplifiedLoss, changedRecords_count, single, whole]
  rfl

theorem sampled_map (counts : m.inputMetric.distance = .integer .u32) (ratio : Binary .double)
    {n : Bounded .u32} {one plain : Binary p}
    (single : m.boundAt (.count unit) = .ok (.float p one))
    (whole : m.boundAt (.integer .u32 n) = .ok (.float p plain)) :
    (m.sampled p unit ratio).map (.integer .u32 n) =
      .ok (.float p (sampledBound ratio (changed unit n) one plain)) :=
  (map_count (m := m.sampled p unit ratio) counts n).trans (sampled_boundAt ratio single whole)

/-- The failure of a sample at `d`: that for one record or else that at `d`. -/
inductive FailsWith (m : Measurement) (p : Precision) (unit : Nat) (d : Value) (why : Error) :
    Prop where
  | single : m.boundAt (.count unit) = .error why → FailsWith m p unit d why
  | whole {one : Binary p} : m.boundAt (.count unit) = .ok (.float p one) →
      m.boundAt d = .error why → FailsWith m p unit d why

theorem FailsWith.sampled_boundAt {n : Bounded .u32} {why : Error}
    (h : m.FailsWith p unit (.integer .u32 n) why) :
    (m.sampled p unit ratio).boundAt (.integer .u32 n) = .error why := by
  show (Distance.validate _ >>= fun _ => m.amplifiedLoss p unit ratio _) = _
  rw [Distance.validate_count, ok_bind, amplifiedLoss, changedRecords_count]
  cases h with
  | single failed =>
    rw [failed]
    rfl
  | whole single failed =>
    rw [single, failed]
    rfl

/-- A sample of the sample fails in the same way. -/
theorem FailsWith.sampled {n : Bounded .u32} {why : Error}
    (h : m.FailsWith p unit (.integer .u32 n) why) :
    (m.sampled p unit ratio).FailsWith p unit (.integer .u32 n) why := by
  cases h with
  | single failed => exact .single (FailsWith.single failed).sampled_boundAt
  | whole single failed =>
    exact .whole (Measurement.sampled_boundAt ratio single single)
      (FailsWith.whole single failed).sampled_boundAt

/-- A loss of a built measurement with a pure loss. -/
theorem Built.exists_loss (signed : Elementary.IsSigned) (h : m.Built)
    (measure : m.outputMeasure = .maxDivergence p) {d l : Value} (hl : m.boundAt d = .ok l) :
    ∃ x : Binary p, l = .float p x ∧ x.OnSide false := by
  have proper := h.losesProperly signed d l hl
  rw [measure] at proper
  cases proper with
  | number side => exact ⟨_, rfl, side⟩

theorem Built.losses_or_fails (signed : Elementary.IsSigned) (h : m.Built)
    (measure : m.outputMeasure = .maxDivergence p) (unit : Nat) (d : Value) :
    (∃ one plain : Binary p, m.boundAt (.count unit) = .ok (.float p one) ∧
      m.boundAt d = .ok (.float p plain) ∧ one.OnSide false ∧ plain.OnSide false) ∨
    ∃ why, m.FailsWith p unit d why := by
  cases single : m.boundAt (.count unit) with
  | error why => exact .inr ⟨why, .single single⟩
  | ok b =>
    obtain ⟨one, rfl, side⟩ := h.exists_loss signed measure single
    cases whole : m.boundAt d with
    | error why => exact .inr ⟨why, .whole single whole⟩
    | ok l =>
      obtain ⟨plain, rfl, side'⟩ := h.exists_loss signed measure whole
      exact .inl ⟨one, plain, rfl, rfl, side, side'⟩

/-! ## Larger populations -/

/-- Amplification is ordered in the population and never hurts. A built measurement on samples of a
fixed size can be amplified with every population that is not smaller; at every count of records the
loss with the larger of two populations is at most that with the smaller one, which is at most the
plain loss, and none of the three is a NaN. -/
theorem Built.amplify_ordered (mono : Elementary.IsMonotone) (h : m.Built) {records : Domain}
    {sample population population' : Nat}
    (sized : m.inputDomain.sizedRecords? = some (records, sample))
    (dataset : m.inputMetric.isDataset) (measure : m.outputMeasure = .maxDivergence p)
    (within : sample ≤ population) (order : population ≤ population') (word : population' < 2 ^ 64) :
    ∃ once wider, m.amplify population = .ok once ∧ m.amplify population' = .ok wider ∧
      ∀ (n : Bounded .u32) plain loss loss', m.map (.integer .u32 n) = .ok plain →
        once.map (.integer .u32 n) = .ok loss → wider.map (.integer .u32 n) = .ok loss' →
        ∃ x y z : Binary p, plain = .float p x ∧ loss = .float p y ∧ loss' = .float p z ∧
          x.isNaN = false ∧ y.isNaN = false ∧ z.isNaN = false ∧ z.le y ∧ y.le x := by
  obtain ⟨unit, one⟩ := Metric.isDataset_iff.mp dataset
  have pos := h.size_pos sized
  refine ⟨_, _, amplify_eq_sampled sized pos within measure one,
    amplify_eq_sampled sized pos (Nat.le_trans within order) measure one, ?_⟩
  intro n plain loss loss' hplain hloss hloss'
  have whole := (map_eq_ok hplain).2
  obtain ⟨_, b, _, _, _, _, single, _⟩ := amplifiedLoss_eq_ok (boundAt_eq_ok (map_eq_ok hloss).2).2
  obtain ⟨x, rfl, side⟩ := h.exists_loss mono.isSigned measure whole
  obtain ⟨e, rfl, side'⟩ := h.exists_loss mono.isSigned measure single
  cases (sampled_boundAt _ single whole).symm.trans (map_eq_ok hloss).2
  cases (sampled_boundAt _ single whole).symm.trans (map_eq_ok hloss').2
  have count := changed_onSide (Metric.pos_of_oneRecord? one) n
  have fraction : (ofNat sample / ofNat population : Binary .double).IsFraction :=
    isFraction_ofNat_div pos (by omega) (by omega) (by omega)
  have fraction' : (ofNat sample / ofNat population' : Binary .double).IsFraction :=
    isFraction_ofNat_div pos (by omega) (by omega) word
  have falls := ofNat_div_rises pos (by omega) (by omega) order word
  have wider := sampledBound_rises mono count fraction' fraction falls side' side
  have amplified := sampledBound_rises_plain mono count fraction side' side
  exact ⟨_, _, _, rfl, rfl, rfl, side.isNaN_eq, wider.isNaN_right, wider.isNaN_left, wider.le,
    amplified.le⟩

/-- Noise on the mean of eight records between zero and eight. -/
def noisyMean : Except Error Measurement := do
  let mean ← Transformation.boundedMean .double (.zero false)
    (.number false (1026 * Precision.double.binade) (by decide)) 8 .symmetricDistance
    (.l1Sensitivity (.float .double))
  let noise ← laplace .double (.number false (1022 * Precision.double.binade) (by decide))
  noise.chain mean

/-- One record of the mean loses two. -/
theorem exists_noisyMean : ∃ m, noisyMean = .ok m ∧ m.Built ∧
    (∃ records, m.inputDomain.sizedRecords? = some (records, 8)) ∧
    m.inputMetric = .symmetricDistance ∧ m.outputMeasure = .maxDivergence .double ∧
    m.boundAt (.count 2) = .ok (.float .double 2) := by
  let eight : Binary .double := .number false (1026 * Precision.double.binade) (by decide)
  let half : Binary .double := .number false (1022 * Precision.double.binade) (by decide)
  obtain ⟨mean, hmean, domain, metric, metric', sized, stability⟩ : ∃ mean,
      Transformation.boundedMean .double (.zero false) eight 8 .symmetricDistance
        (.l1Sensitivity (.float .double)) = .ok mean ∧ mean.outputDomain = .all (.float .double) ∧
      mean.inputMetric = .symmetricDistance ∧ mean.outputMetric = .l1Sensitivity (.float .double) ∧
      (∃ records, mean.inputDomain.sizedRecords? = some (records, 8)) ∧
      ∀ n, mean.stability (.integer .u32 n) = .ok (.upward .double
        (ofInt n.val * ((eight.convert : Binary .double) - (zero false : Binary .double).convert) /
          (ofNat 2 * ofNat 8))) :=
    ⟨_, rfl, rfl, rfl, rfl, ⟨_, rfl⟩, fun _ => rfl⟩
  obtain ⟨noise, hnoise⟩ : ∃ noise, laplace .double half = .ok noise := by
    refine ⟨_, bind_eq_ok_iff.mpr ⟨(), if_pos ?_, rfl⟩⟩
    rw [convert_self]
    decide
  obtain ⟨_, shape⟩ := laplace_eq_ok hnoise
  have chained : noise.chain mean = .ok (noise.joined mean) := by
    refine chain_eq_ok_iff.mpr ⟨?_, ?_, rfl⟩
    · rw [domain, shape]
      rfl
    · rw [metric', shape]
  refine ⟨noise.joined mean, bind_eq_ok_iff.mpr ⟨mean, hmean, bind_eq_ok_iff.mpr
    ⟨noise, hnoise, chained⟩⟩, .chain (.laplace hnoise) (.boundedMean hmean) chained, sized, metric,
    ?_, ?_⟩
  · rw [joined, shape]
  have one : mean.boundAt (.count 2) = .ok (.float .double 1) := by
    refine bind_eq_ok_iff.mpr ⟨(), Distance.validate_count _, (stability _).trans ?_⟩
    exact congrArg (fun x => Except.ok (Value.float .double x)) (by decide +kernel)
  rw [joined_boundAt, one, ok_bind, shape]
  refine bind_eq_ok_iff.mpr ⟨(), Distance.validate_numeric_iff.mpr (by decide +kernel), ?_⟩
  exact congrArg (fun x => Except.ok (Value.float .double x)) (by decide +kernel)

omit [Elementary] in
/-- The noisy mean, of the eight records of a population of 64 and of one of 512. -/
theorem Built.amplify_ordered_mean :
    letI := Elementary.nearest
    ∃ m once wider : Measurement, noisyMean = .ok m ∧ m.Built ∧ m.amplify 64 = .ok once ∧
      m.amplify 512 = .ok wider ∧ ∃ x y z : Binary .double,
        m.map (.count 2) = .ok (.float .double x) ∧ once.map (.count 2) = .ok (.float .double y) ∧
        wider.map (.count 2) = .ok (.float .double z) ∧ x.isNaN = false ∧ y.isNaN = false ∧
        z.isNaN = false ∧ z.le y ∧ y.le x := by
  let _ := Elementary.nearest
  obtain ⟨m, made, built, ⟨records, sized⟩, metric, measure, plain⟩ := exists_noisyMean
  have one : m.inputMetric.oneRecord? = some 2 := by rw [metric]; rfl
  have counts := Metric.distance_of_oneRecord? one
  have maps := (map_count counts _).trans plain
  have amplified : ∀ population once, 8 ≤ population → m.amplify population = .ok once →
      ∃ loss, once.map (.count 2) = .ok loss := by
    intro population once within honce
    cases (amplify_eq_sampled sized (by decide) within measure one).symm.trans honce
    exact ⟨_, sampled_map counts _ plain plain⟩
  obtain ⟨once, wider, honce, hwider, ordered⟩ := built.amplify_ordered Elementary.nearest_isMonotone
    sized (Metric.isDataset_iff.mpr ⟨2, one⟩) measure (show 8 ≤ 64 by decide)
    (show 64 ≤ 512 by decide) (by decide)
  obtain ⟨loss, hloss⟩ := amplified _ _ (by decide) honce
  obtain ⟨loss', hloss'⟩ := amplified _ _ (by decide) hwider
  obtain ⟨x, y, z, hx, rfl, rfl, result⟩ := ordered _ _ _ _ maps hloss hloss'
  exact ⟨m, once, wider, made, built, honce, hwider, x, y, z, hx ▸ maps, hloss, hloss', result⟩

/-! ## The same population again -/

/-- A sample of the sample, in the same fraction. -/
theorem Built.sampled_again (mono : Elementary.IsMonotone) (h : m.Built)
    (measure : m.outputMeasure = .maxDivergence p) (one : m.inputMetric.oneRecord? = some unit)
    (fraction : ratio.IsFraction) (n : Bounded .u32) :
    (∃ x y : Binary p, (m.sampled p unit ratio).boundAt (.integer .u32 n) = .ok (.float p x) ∧
      ((m.sampled p unit ratio).sampled p unit ratio).boundAt (.integer .u32 n) =
        .ok (.float p y) ∧ y.le x ∧
      ∀ e e' : Binary p, m.boundAt (.count unit) = .ok (.float p e) →
        (m.sampled p unit ratio).boundAt (.count unit) = .ok (.float p e') → e.le e' → x.le y) ∨
    ∃ why, (m.sampled p unit ratio).boundAt (.integer .u32 n) = .error why ∧
      ((m.sampled p unit ratio).sampled p unit ratio).boundAt (.integer .u32 n) = .error why := by
  have unit_pos := Metric.pos_of_oneRecord? one
  rcases h.losses_or_fails mono.isSigned measure unit (.integer .u32 n) with
    ⟨e, plain, single, whole, side, side'⟩ | ⟨why, failed⟩
  · have once := sampled_boundAt ratio single whole
    have single' := sampled_boundAt ratio single single
    have count := changed_onSide unit_pos n
    have amplified := sampledBound_rises_plain mono count fraction side side'
    have changed := changed_onSide unit_pos (Bounded.clamp .u32 unit)
    have side'' := (sampledBound_rises_plain mono changed fraction side side).side
    refine .inl ⟨_, _, once, sampled_boundAt ratio single' once,
      (sampledBound_rises_plain mono count fraction side'' amplified.side).le, ?_⟩
    intro e₀ e' he he' le
    cases single.symm.trans he
    cases single'.symm.trans he'
    exact (sampledBound_rises_again mono count fraction ⟨side, le⟩ side').le
  · exact .inr ⟨why, failed.sampled_boundAt, failed.sampled.sampled_boundAt⟩

/-- Amplification with the same population a second time is never refused. What it makes fails where
the amplified measurement does, and as it does; elsewhere it loses no more. It loses no less either
if the first amplification has not lowered the loss for one record. -/
theorem Built.amplify_again (mono : Elementary.IsMonotone) (h : m.Built) {population : Nat}
    (word : population < 2 ^ 64) (one : m.inputMetric.oneRecord? = some unit)
    (made : m.amplify population = .ok once) :
    ∃ twice, once.amplify population = .ok twice ∧ ∀ d,
      (∃ loss loss', once.map d = .ok loss ∧ twice.map d = .ok loss' ∧
        Distance.le loss' loss = .ok true ∧
        ∀ e e', m.map (.count unit) = .ok e → once.map (.count unit) = .ok e' →
          Distance.le e e' = .ok true → Distance.le loss loss' = .ok true) ∨
      ∃ why, once.map d = .error why ∧ twice.map d = .error why := by
  obtain ⟨records, sample, p, _, sized, nonempty, within, measure, _⟩ := amplify_eq_ok made
  have pos := Nat.pos_of_ne_zero nonempty
  have built := Built.amplify h made
  cases (amplify_eq_sampled sized pos within measure one).symm.trans made
  have fraction : (ofNat sample / ofNat population : Binary .double).IsFraction :=
    isFraction_ofNat_div pos (by omega) (by omega) word
  refine ⟨_, amplify_eq_sampled sized pos within measure one, fun d => ?_⟩
  generalize (ofNat sample / ofNat population : Binary .double) = ratio at fraction built ⊢
  have counts := Metric.distance_of_oneRecord? one
  -- All check the type of the distance, which has to be a count of records.
  by_cases typed : d.type = m.inputMetric.distanceType
  · obtain ⟨n, rfl⟩ := Value.type_eq_numeric_iff.mp (typed.trans (congrArg Descriptor.numeric counts))
    have toOnce := map_count (m := m.sampled p unit ratio) counts
    have toTwice := map_count (m := (m.sampled p unit ratio).sampled p unit ratio) counts n
    rcases h.sampled_again mono measure one fraction n with
      ⟨x, y, once, twice, le, kept⟩ | ⟨why, once, twice⟩
    · refine .inl ⟨_, _, (toOnce n).trans once, toTwice.trans twice,
        (Distance.le_float y x).trans (congrArg _ le), fun l l' hl hl' order => ?_⟩
      have hl := (map_eq_ok hl).2
      have hl' := (map_eq_ok hl').2
      obtain ⟨e, rfl, _⟩ := h.exists_loss mono.isSigned measure hl
      obtain ⟨e', rfl, _⟩ := built.exists_loss mono.isSigned measure hl'
      rw [Distance.le_float] at order ⊢
      rw [kept e e' hl hl' (Except.ok.inj order)]
    · exact .inr ⟨why, (toOnce n).trans once, toTwice.trans twice⟩
  · have refused : checkDistanceType m.inputMetric d = .error _ := if_neg typed
    exact .inr ⟨_, congrArg (· >>= _) refused, congrArg (· >>= _) refused⟩

omit [Elementary] in
/-- The noisy mean, of eight records of a population of 64, amplified twice. -/
theorem Built.amplify_again_mean :
    letI := Elementary.nearest
    ∃ m once twice : Measurement, noisyMean = .ok m ∧ m.Built ∧ m.amplify 64 = .ok once ∧
      once.amplify 64 = .ok twice ∧ ∃ loss loss', once.map (.count 2) = .ok loss ∧
        twice.map (.count 2) = .ok loss' ∧ Distance.le loss' loss = .ok true := by
  let _ := Elementary.nearest
  obtain ⟨m, made, built, ⟨records, sized⟩, metric, measure, plain⟩ := exists_noisyMean
  have one : m.inputMetric.oneRecord? = some 2 := by rw [metric]; rfl
  have honce := amplify_eq_sampled sized (by decide) (show 8 ≤ 64 by decide) measure one
  obtain ⟨twice, htwice, result⟩ :=
    built.amplify_again Elementary.nearest_isMonotone (by decide) one honce
  refine ⟨m, _, twice, made, built, honce, htwice, ?_⟩
  have maps := sampled_map (Metric.distance_of_oneRecord? one) (ofNat 8 / ofNat 64) plain plain
  rcases result (.count 2) with ⟨loss, loss', hloss, hloss', le, _⟩ | ⟨_, failed, _⟩
  · exact ⟨loss, loss', hloss, hloss', le⟩
  · cases maps.symm.trans failed

omit [Elementary] in
/-- The noisy mean, of eight records that were drawn from 64 once: amplified twice, one record is said
to lose less than amplified once. -/
theorem amplify_compounds :
    letI := Elementary.machine
    ∃ m once twice : Measurement, noisyMean = .ok m ∧ m.Built ∧ m.amplify 64 = .ok once ∧
      once.amplify 64 = .ok twice ∧ ∃ loss loss', once.map (.count 2) = .ok loss ∧
        twice.map (.count 2) = .ok loss' ∧ Distance.le loss loss' = .ok false := by
  let _ := Elementary.machine
  obtain ⟨m, made, built, ⟨records, sized⟩, metric, measure, plain⟩ := exists_noisyMean
  have one : m.inputMetric.oneRecord? = some 2 := by rw [metric]; rfl
  have counts := Metric.distance_of_oneRecord? one
  have honce := amplify_eq_sampled sized (by decide) (show 8 ≤ 64 by decide) measure one
  have htwice := amplify_eq_sampled (m := m.sampled .double 2 (ofNat 8 / ofNat 64)) sized (by decide)
    (show 8 ≤ 64 by decide) measure one
  have once := sampled_boundAt (ofNat 8 / ofNat 64) plain plain
  refine ⟨m, _, _, made, built, honce, htwice, _, _, sampled_map counts _ plain plain,
    sampled_map (m := m.sampled .double 2 (ofNat 8 / ofNat 64)) counts _ once once, ?_⟩
  rw [Distance.le_float]
  exact congrArg Except.ok (by decide +kernel)

end Measurement

end PrivateRelease
