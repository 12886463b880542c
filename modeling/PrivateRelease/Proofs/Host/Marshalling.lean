import PrivateRelease.Proofs.Host.Limits

/-!
# Distances as they are marshalled

The library checks the distance and the bound that the marshaller makes of the host's. Integers stay
what they are. A number that becomes a float is rounded to the nearest one, as a distance and as a
bound alike: it stays what it is if the precision has it, and is one of its two neighbours otherwise.
So a distance can be checked that is less than the one given.
-/

namespace PrivateRelease

/-- The value of a native number that is finite. -/
def Numeric.rational? : {q : Numeric} → q.Carrier → Option ℚ
  | .integer _, n => some (Bounded.val n)
  | .float _, x => if Binary.isFinite x then some (Binary.toRat x) else none

theorem Numeric.rational?_float {p : Precision} {x : Binary p} {a : ℚ} :
    Numeric.rational? (q := .float p) x = some a ↔ x.isFinite ∧ x.toRat = a := by
  simp [Numeric.rational?]

namespace Host

namespace Value

/-- The value of a number that is finite. -/
def rational? : Value → Option ℚ
  | int n => some n.val
  | float x => if x.isFinite then some x.toRat else none
  | _ => none

/-- The number of a type that a host number becomes. -/
inductive Marshals : Value → (q : Numeric) → q.Carrier → Prop
  | integer {n : Bounded .i64} {k : IntegerType} {m : Bounded k} :
    n.val = m.val → Marshals (.int n) (.integer k) m
  | float {v : Value} {a : ℚ} {p : Precision} {x : Binary p} :
    v.rational? = some a → x.Faithful a → Marshals v (.float p) x
  | infinite (s : Bool) (p : Precision) : Marshals (.float (.infinite s)) (.float p) (.infinite s)
  | nan {x : Binary .double} {p : Precision} {y : Binary p} :
    x.isNaN → y.isNaN → Marshals (.float x) (.float p) y

/-- The native bound that a host bound becomes. -/
inductive MarshalsBound : Value → PrivateRelease.Value → Prop
  | number {v : Value} {q : Numeric} {x : q.Carrier} :
    v.Marshals q x → MarshalsBound v (.numeric q x)
  | pair {v w : Value} {p : Precision} {x y : Binary p} :
    v.Marshals (.float p) x → w.Marshals (.float p) y →
      MarshalsBound (.tuple [v, w]) (.tuple [.float p x, .float p y])

/-- The native number has the value of the host's, if there is one of its type that has. -/
def Keeps (v : Value) {q : Numeric} (x : q.Carrier) : Prop :=
  ∀ (a : ℚ) (y : q.Carrier), v.rational? = some a → Numeric.rational? y = some a →
    Numeric.rational? x = some a

/-- The same for each number of a bound. -/
inductive KeepsBound : Value → PrivateRelease.Value → Prop
  | number {v : Value} {q : Numeric} {x : q.Carrier} : v.Keeps x → KeepsBound v (.numeric q x)
  | pair {v w : Value} {p : Precision} {x y : Binary p} :
    v.Keeps (q := .float p) x → w.Keeps (q := .float p) y →
      KeepsBound (.tuple [v, w]) (.tuple [.float p x, .float p y])

variable {v : Value} {q : Numeric} {x : q.Carrier}

theorem marshals_convert (x : Binary .double) (p : Precision) :
    (Value.float x).Marshals (.float p) x.convert := by
  cases finite : x.isFinite with
  | true => exact .float (if_pos finite) (Binary.faithful_toRat finite).convert
  | false =>
    cases x with
    | nan s n h => exact .nan rfl ((Binary.isNaN_convert _).trans rfl)
    | number s r h =>
      have infinite : r = Precision.double.infinity := by
        simpa [Binary.isFinite] using finite
      subst infinite
      rw [Binary.convert, if_pos rfl]
      exact .infinite s p

theorem marshals_of_toNumeric (h : v.toNumeric q = .ok x) : v.Marshals q x := by
  cases q with
  | integer k =>
    obtain ⟨n, rfl, value⟩ := toNumeric_integer_eq_ok_iff.mp h
    exact .integer value
  | float p =>
    obtain ⟨y, hy, rfl⟩ := toScalar_float_eq_ok_iff.mp h
    cases v with
    | int n =>
      cases hy
      exact .float rfl (Binary.faithful_ofInt n.val).convert
    | float x =>
      cases hy
      exact marshals_convert y p
    | _ => cases hy

/-- A number that becomes a usable distance is finite. -/
theorem Marshals.exists_rational (h : v.Marshals q x) (usable : Distance.isUsable (Numeric.toDouble x)) :
    ∃ a, v.rational? = some a := by
  have finite := (Distance.isUsable_iff.mp usable).1
  cases h with
  | integer => exact ⟨_, rfl⟩
  | float value => exact ⟨_, value⟩
  | infinite s p =>
    have outside : ((Binary.infinite s : Binary p).convert : Binary .double).isFinite = false := by
      rw [Binary.infinite, Binary.convert, if_pos rfl]
      simp [Binary.isFinite, Binary.infinite]
    cases outside.symm.trans finite
  | nan _ none =>
    have number := Binary.isNaN_of_isFinite finite
    rw [Numeric.toDouble, Binary.isNaN_convert, none] at number
    cases number

/-- A number that the type has is marshalled as it is. -/
theorem Marshals.keeps (h : v.Marshals q x) : v.Keeps x := by
  intro a y value held
  cases h with
  | integer same =>
    cases value
    exact congrArg (fun n : Int => some (n : ℚ)) same.symm
  | float value' near =>
    cases value.symm.trans value'
    obtain ⟨finite, exact⟩ := Numeric.rational?_float.mp held
    exact Numeric.rational?_float.mpr (near.toRat_eq finite exact)
  | infinite => cases value
  | @nan z _ _ none =>
    cases z with
    | nan => cases value
    | number => cases none

theorem MarshalsBound.keeps {o : PrivateRelease.Value} (h : v.MarshalsBound o) :
    v.KeepsBound o := by
  cases h with
  | number h => exact .number h.keeps
  | pair hx hy => exact .pair hx.keeps hy.keeps

theorem marshalsBound_of_toNative {m : Mechanism} {o : PrivateRelease.Value}
    (h : v.toNative m.boundType = .ok o) : v.MarshalsBound o := by
  have number : ∀ {q : Numeric}, v.toNative (.numeric q) = .ok o → v.MarshalsBound o := by
    intro q h
    obtain ⟨x, hx, rfl⟩ := toNative_primitive_eq_ok_iff.mp h
    exact .number (marshals_of_toNumeric hx)
  have pair : ∀ {p : Precision}, v.toNative (.pair (.float p)) = .ok o → v.MarshalsBound o := by
    intro p h
    obtain ⟨_, _, x, y, rfl, hx, hy, rfl⟩ := toNative_pair_eq_ok_iff.mp h
    exact .pair (marshals_of_toNumeric hx) (marshals_of_toNumeric hy)
  cases m with
  | transformation t => exact number h
  | measurement m =>
    have made : v.toNative m.outputMeasure.boundType = .ok o := h
    cases hm : m.outputMeasure with
    | maxDivergence => exact number (hm ▸ made)
    | smoothedMaxDivergence => exact pair (hm ▸ made)
    | fixedSmoothedMaxDivergence => exact pair (hm ▸ made)

end Value

variable [Elementary]

/-- A check of a reachable entity is the native check of what the distance and the bound become: the
same numbers where their types have them, and nothing beyond their neighbours otherwise. -/
theorem check_marshals {e : AnyEntity} (reachable : e.Reachable) {d bound : Value} {b : Bool}
    {l : Boundary.Ledger} (checked : (e.check d bound l).1 = .ok b) :
    ∃ (m : Mechanism) (x : m.inputMetric.distance.Carrier) (o : PrivateRelease.Value),
      e.Holds m ∧ (∃ a, d.rational? = some a) ∧ d.Marshals m.inputMetric.distance x ∧
        bound.MarshalsBound o ∧ d.Keeps x ∧ bound.KeepsBound o ∧
        m.check (.numeric m.inputMetric.distance x) o = .ok b := by
  obtain ⟨m, h⟩ := reachable.exists_represents
  have holds : e.Holds m := by cases e <;> exact Entity.Represents.holding h
  obtain ⟨o, o', ho, ho', native⟩ : ∃ o o', d.toNative m.inputMetric.distanceType = .ok o ∧
      bound.toNative m.boundType = .ok o' ∧ m.check o o' = .ok b := by
    cases e <;> exact ((Entity.Represents.check_eq_ok_iff h d bound b l).mp checked).2
  obtain ⟨x, hx, rfl⟩ := Value.toNative_primitive_eq_ok_iff.mp ho
  have marshals := Value.marshals_of_toNumeric hx
  obtain ⟨_, mapped⟩ := Mechanism.map_of_check native
  have usable := Distance.validate_numeric_iff.mp (Mechanism.validate_of_map mapped)
  have bounded := Value.marshalsBound_of_toNative ho'
  exact ⟨m, x, o', holds, marshals.exists_rational usable, marshals, bounded, marshals.keeps,
    bounded.keeps, native⟩

omit [Elementary] in
/-- Laplace noise of scale one in single precision. At distance one the check with the bound one is the
native one at just these numbers. -/
theorem check_marshals_laplace :
    letI := Elementary.machine
    ∃ (e : Entity .measurement) (m : Mechanism) (x : m.inputMetric.distance.Carrier)
      (o : PrivateRelease.Value), (AnyEntity.measurement e).Reachable ∧
      (AnyEntity.measurement e).Holds m ∧ (∀ l, (e.check (.float .one) (.float .one) l).1 = .ok true) ∧
      (Numeric.toDouble x).toRat = 1 ∧ (Value.float .one).MarshalsBound o ∧
      m.check (.numeric m.inputMetric.distance x) o = .ok true := by
  let _ := Elementary.machine
  obtain ⟨e, reachable, typed, checked⟩ := AnyEntity.exists_laplace_check (p := .single) .one
    (by decide +kernel) .one .one (by decide +kernel) (by decide +kernel)
  obtain ⟨m, x, o, holds, _, _, bound, kept, _, native⟩ :=
    check_marshals reachable (checked (.start (.seeded 0)))
  have exact : ∀ {q : Numeric} {x : q.Carrier}, q = .float .single → (Value.float .one).Keeps x →
      (Numeric.toDouble x).toRat = 1 := by
    rintro _ x rfl kept
    have value := kept 1 Binary.one (by decide +kernel) (by decide +kernel)
    obtain ⟨finite, value⟩ := Numeric.rational?_float.mp value
    exact (Binary.convert_double finite).2.trans value
  rw [(reachable.represents holds).descriptors] at typed
  exact ⟨e, m, x, o, reachable, holds, checked, exact (Metric.distance_of_type typed) kept, bound,
    native⟩

omit [Elementary] in
/-- With that noise the check with the bound one passes at the next double after one, as it sees the
distance one. -/
theorem narrow_distance_passes :
    letI := Elementary.machine
    letI next : Binary .double := .number false (1023 * Precision.double.binade + 1) (by decide)
    ∃ (e : Entity .measurement) (x : Binary .single), (AnyEntity.measurement e).Reachable ∧
      (∀ l, (e.check (.float next) (.float .one) l).1 = .ok true) ∧
      (Value.float next).toNative (AnyEntity.measurement e).descriptors.inputDistance =
        .ok (.float .single x) ∧
      next.isFinite ∧ x.isFinite ∧ x.toRat < next.toRat := by
  let _ := Elementary.machine
  let next : Binary .double := .number false (1023 * Precision.double.binade + 1) (by decide)
  obtain ⟨e, reachable, distance, checked⟩ := AnyEntity.exists_laplace_check (p := .single) .one
    (by decide +kernel) next .one (by decide +kernel) (by decide +kernel)
  refine ⟨e, next.convert, reachable, checked, ?_, by decide, by decide +kernel, by decide +kernel⟩
  rw [distance]
  rfl

end Host

end PrivateRelease
