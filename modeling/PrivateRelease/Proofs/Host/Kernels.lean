import PrivateRelease.Proofs.Host.Instances
import PrivateRelease.Proofs.Host.Making

/-!
# Kernels

Every operation that makes an entity from values refines the constructor that the types choose: what
is passed by reference, by value or in the list of types arrives on the other side as it was meant.
-/

namespace PrivateRelease.Host

open Boundary Stop

/-! ## Chosen types -/

theorem TypeHint.wellFormed_toDescriptor {h : TypeHint} {d : Descriptor}
    (hd : h.toDescriptor = .ok d) : d.WellFormed := by
  cases h with
  | host m => cases m <;> cases hd <;> exact .primitive _
  | descriptor text =>
    unfold toDescriptor at hd
    cases hp : Descriptor.parse text with
    | error why => simp [hp, Except.mapError] at hd
    | ok e =>
      obtain rfl : e = d := by simpa [hp, Except.mapError] using hd
      exact (Descriptor.parse_eq_ok_iff.mp hp).1

namespace Value

mutual

theorem wellFormed_inferred {v : Value} {d : Descriptor} (h : v.inferred = .ok d) :
    d.WellFormed := by
  match v with
  | list [] => cases h
  | list (v :: vs) =>
    rw [inferred] at h
    obtain ⟨e, he, h⟩ := bind_eq_ok_iff.mp h
    cases h
    exact Descriptor.wellFormed_vector (wellFormed_inferred he)
  | tuple items =>
    rw [inferred] at h
    obtain ⟨ds, hds, h⟩ := bind_eq_ok_iff.mp h
    cases h
    exact .tuple (wellFormed_inferredAll hds)
  | bool _ => cases h; exact .primitive _
  | int _ => cases h; exact .primitive _
  | float _ => cases h; exact .primitive _
  | text _ => cases h; exact .primitive _

theorem wellFormed_inferredAll {vs : List Value} {ds : List Descriptor}
    (h : inferredAll vs = .ok ds) : ∀ d ∈ ds, d.WellFormed := by
  match vs with
  | [] =>
    cases h
    simp
  | v :: vs =>
    rw [inferredAll] at h
    obtain ⟨e, he, h⟩ := bind_eq_ok_iff.mp h
    obtain ⟨es, hes, h⟩ := bind_eq_ok_iff.mp h
    cases h
    simpa using ⟨wellFormed_inferred he, wellFormed_inferredAll hes⟩

end

end Value

/-- Hints are read, and fallbacks are types that can be. -/
theorem Hints.wellFormed_resolve {hints : Hints} {name : String} {r : Except Failure Descriptor}
    (hr : ∀ d, r = .ok d → d.WellFormed) {d : Descriptor} (h : hints.resolve name r = .ok d) :
    d.WellFormed := by
  unfold resolve at h
  split at h
  · exact TypeHint.wellFormed_toDescriptor h
  · exact hr d h

/-! ## Passed arguments -/

section Passing

variable {f : Frame} {b : Bindings} {p : Parameter} {q : Numeric}

/-- A number of the bound type is passed at a fixed place. -/
theorem Frame.pushed_number (hp : p.passing = .byReference) (hs : p.shape = "T")
    (hb : b.lookup "T" = some (.numeric q)) (v : Value) :
    f.pushed b p (.value v) = (v.toNumeric q >>= fun x =>
      .ok (f.withPayload (.reference (.slot (.numeric q) x)))) := by
  have shape : template p.shape b = .ok (.numeric q) := by
    rw [hs]
    exact template_named (by decide) hb
  rw [Frame.pushed_byReference hp shape]
  exact bind_assoc (v.toNumeric q) _ _

/-- A frame with both bounds. -/
def bounded (q : Numeric) (i : q.Carrier × q.Carrier) : Frame :=
  (Frame.empty.withPayload (.reference (.slot (.numeric q) i.1))).withPayload
    (.reference (.slot (.numeric q) i.2))

/-- Both bounds as numbers. -/
def bounds (lower upper : Value) (q : Numeric) : Except Failure (q.Carrier × q.Carrier) := do
  let x ← lower.toNumeric q
  let y ← upper.toNumeric q
  return (x, y)

theorem pushedAll_bounds (hb : b.lookup "T" = some (.numeric q)) (lower upper : Value)
    (rest : List (Parameter × Argument)) :
    Frame.pushedAll b ((.lower, .value lower) :: (.upper, .value upper) :: rest) .empty =
      (bounds lower upper q >>= fun i => Frame.pushedAll b rest (bounded q i)) := by
  simp only [Frame.pushedAll, bounds, bounded, Frame.pushed_number (p := .lower) rfl rfl hb,
    Frame.pushed_number (p := .upper) rfl rfl hb]
  cases lower.toNumeric q with
  | error _ => rfl
  | ok x => cases upper.toNumeric q <;> rfl

theorem accept_bounds {α : Type} (lower upper : Value) (k : q.Carrier × q.Carrier → Except Stop α) :
    accept (bounds lower upper q) >>= k = accept (lower.toNumeric q) >>= fun x =>
      accept (upper.toNumeric q) >>= fun y => k (x, y) := by
  unfold bounds
  cases lower.toNumeric q with
  | error _ => rfl
  | ok x => cases upper.toNumeric q <;> rfl

theorem pushedAll_scale (hb : b.lookup "T" = some (.numeric q)) (scale : Value) :
    Frame.pushedAll b [(.scale, .value scale)] .empty =
      (scale.toNumeric q >>= fun x =>
        .ok (Frame.empty.withPayload (.reference (.slot (.numeric q) x)))) := by
  simp only [Frame.pushedAll, Frame.pushed_number (p := .scale) rfl rfl hb]
  cases scale.toNumeric q <;> rfl

/-- A size that the host can hold is passed as it is. -/
theorem size_eq_ok {parameter : String} {n : Nat} {m : Bounded .i64}
    (h : Library.size parameter n = .ok m) : m.val = n ∧ n < 2 ^ 63 := by
  unfold Library.size Bounded.ofInt? at h
  split at h
  · next hm =>
    split at hm
    · next hn =>
      obtain rfl := Option.some.inj hm
      cases h
      have := hn.2
      exact ⟨rfl, by simp [IntegerType.greatest] at this; omega⟩
    · cases hm
  · cases h

theorem Frame.pushed_size (hp : p.passing = .byValue) (hs : p.shape = "u64") {n : Nat}
    {m : Bounded .i64} (hm : m.val = n) (hn : n < 2 ^ 63) :
    f.pushed b p (.value (.int m)) = .ok (f.withPayload (.integer n)) := by
  have shape : template p.shape b = .ok (.integer .u64) := by
    rw [hs]
    exact template_primitive (.numeric (.integer .u64)) b
  have word : (Value.int m).toWord (.integer .u64) = .ok (.integer n) := by
    have held : Bounded.ofInt? .u64 m.val = some ⟨n, by simp [IntegerType.least], by
        simp [IntegerType.greatest]; omega⟩ := by
      simp [Bounded.ofInt?, hm, IntegerType.least, IntegerType.greatest]
      omega
    simp [Descriptor.integer, Descriptor.numeric, Value.toWord, Value.toNumeric, Value.int?,
      Value.demand, held, bind, Except.bind, pure, Except.pure]
  rw [Frame.pushed_byValue hp shape, word]
  rfl

end Passing

section Kernels

variable [Elementary] {l : Library} {t : Descriptor}

omit [Elementary] in
theorem wellFormed_one (name : String) (ht : t.WellFormed) : Bindings.WellFormed [(name, t)] := by
  simpa [Bindings.WellFormed] using ht

omit [Elementary] in
theorem lookup_one (name : String) : List.lookup name [(name, t)] = some t :=
  List.lookup_cons_self

/-- What is made for a single type, without arguments. -/
theorem make_given {name parameter : String} {p : Primitive} {entry : Entry} {y : Transformation}
    (hl : Export.lookup ((Signature.kernel "trans" name [parameter] [] .transformation []).symbol
      [.primitive p]) = some entry)
    (hb : ∀ blob args, entry.body blob args = do
      Call.ofExcept (blob.expect [.primitive p])
      Call.ofExcept args.none
      Call.give (.transformation y))
    (hy : y.Built) : Refines (l.make .transformation
      (.kernel "trans" name [parameter] [] .transformation []) [(parameter, .primitive p)] [])
      Entity.Represents (.ok (.transformation y)) := by
  have types : ∀ d ∈ [Descriptor.primitive p], d.WellFormed := by
    simp [Descriptor.WellFormed.primitive]
  have bound : (Signature.kernel "trans" name [parameter] [] .transformation []).types
      [(parameter, .primitive p)] = .ok [.primitive p] := by
    simp [Signature.types, Signature.kernel]
  have prepared : (Signature.kernel "trans" name [parameter] [] .transformation []).prepared
      l.features [(parameter, .primitive p)] [] =
        ((.ok () : Except Failure Unit) >>= fun _ => .ok ([.primitive p], .empty)) := by
    rw [Signature.prepared_eq rfl rfl bound]
    rfl
  refine Library.make_refines (x := .ok ()) (c := fun _ => .ok y) (w := .transformation)
    (wellFormed_one parameter (.primitive p)) rfl hl prepared (fun _ => trivial)
    (fun _ _ h => ⟨Except.ok.inj h ▸ hy, rfl⟩) fun _ t => ?_
  rw [hb]
  refine (Call.evaluates_ok (Blob.expect_argsText types) t).bind_ok ?_
  exact (Call.evaluates_ok rfl t).bind_ok (Call.evaluates_give _ t)

/-- What is made of two bounds. -/
theorem make_bounded {name : String} {fs : List String} {q : Numeric} {entry : Entry}
    {c : q.Carrier → q.Carrier → Except Error Transformation}
    (hf : l.features.require fs ("trans" ++ "::" ++ name) = .ok ())
    (hl : Export.lookup ((Signature.kernel "trans" name ["T"] [.lower, .upper] .transformation
      fs).symbol [.numeric q]) = some entry)
    (hb : ∀ blob args, entry.body blob args = do
      Call.ofExcept (blob.expect [.numeric q])
      let (lower, upper) ← Call.ofExcept args.two
      let lower ← Call.ofExcept (lower.toSlot (.numeric q) "lower")
      let upper ← Call.ofExcept (upper.toSlot (.numeric q) "upper")
      Call.give (.transformation (← Call.ofCore (c lower upper))))
    (hc : ∀ x y, Yields Error.WellFormed (fun _ => True) (c x y))
    (built : ∀ x y t, c x y = .ok t → t.Built) (lower upper : Value) :
    Refines (l.make .transformation
        (.kernel "trans" name ["T"] [.lower, .upper] .transformation fs) [("T", .numeric q)]
        [.value lower, .value upper]) Entity.Represents (do
      let x ← accept (lower.toNumeric q)
      let y ← accept (upper.toNumeric q)
      return .transformation (← core (c x y))) := by
  have types : ∀ d ∈ [Descriptor.numeric q], d.WellFormed := by
    simp [Descriptor.wellFormed_numeric]
  have prepared : (Signature.kernel "trans" name ["T"] [.lower, .upper] .transformation
      fs).prepared l.features [("T", .numeric q)] [.value lower, .value upper] =
        (bounds lower upper q >>= fun i => .ok ([.numeric q], bounded q i)) := by
    rw [Signature.prepared_eq hf rfl rfl]
    exact (congrArg (· >>= _) (pushedAll_bounds (lookup_one "T") lower upper [])).trans
      (bind_assoc _ _ _)
  have made := Library.make_refines (c := fun i => c i.1 i.2) (r := .transformation)
    (w := .transformation) (wellFormed_one "T" (Descriptor.wellFormed_numeric q)) rfl hl prepared
    (fun i => hc i.1 i.2) (fun i t h => ⟨built i.1 i.2 t h, rfl⟩) fun i t => ?_
  · rwa [accept_bounds] at made
  rw [hb]
  refine (Call.evaluates_ok (Blob.expect_argsText types) t).bind_ok ?_
  refine (Call.evaluates_ok rfl t).bind_ok ?_
  refine (Call.evaluates_ok (Payload.toSlot_number i.1 "lower") t).bind_ok ?_
  refine (Call.evaluates_ok (Payload.toSlot_number i.2 "upper") t).bind_ok ?_
  exact Call.evaluates_made _ _ t

/-- What is made of a scale. -/
theorem make_scaled {name : String} {fs : List String} {q : Numeric} {entry : Entry}
    {c : q.Carrier → Except Error Measurement}
    (hf : l.features.require fs ("meas" ++ "::" ++ name) = .ok ())
    (hl : Export.lookup ((Signature.kernel "meas" name ["T"] [.scale] .measurement fs).symbol
      [.numeric q]) = some entry)
    (hb : ∀ blob args, entry.body blob args = do
      Call.ofExcept (blob.expect [.numeric q])
      let scale ← Call.ofExcept (do (← args.one).toSlot (.numeric q) "scale")
      Call.give (.measurement (← Call.ofCore (c scale))))
    (hc : ∀ x, Yields Error.WellFormed (fun _ => True) (c x))
    (built : ∀ x m, c x = .ok m → m.Built) (scale : Value) :
    Refines (l.make .measurement (.kernel "meas" name ["T"] [.scale] .measurement fs)
        [("T", .numeric q)] [.value scale]) Entity.Represents (do
      let x ← accept (scale.toNumeric q)
      return .measurement (← core (c x))) := by
  have types : ∀ d ∈ [Descriptor.numeric q], d.WellFormed := by
    simp [Descriptor.wellFormed_numeric]
  have prepared : (Signature.kernel "meas" name ["T"] [.scale] .measurement fs).prepared l.features
      [("T", .numeric q)] [.value scale] = (scale.toNumeric q >>= fun x =>
        .ok ([.numeric q], Frame.empty.withPayload (.reference (.slot (.numeric q) x)))) := by
    rw [Signature.prepared_eq hf rfl rfl]
    exact (congrArg (· >>= _) (pushedAll_scale (lookup_one "T") scale)).trans (bind_assoc _ _ _)
  refine Library.make_refines (c := c) (r := .measurement) (w := .measurement)
    (wellFormed_one "T" (Descriptor.wellFormed_numeric q)) rfl hl prepared hc
    (fun x m h => ⟨built x m h, rfl⟩) fun x t => ?_
  rw [hb]
  refine (Call.evaluates_ok (Blob.expect_argsText types) t).bind_ok ?_
  refine (Call.evaluates_ok (Payload.toSlot_number x "scale") t).bind_ok ?_
  exact Call.evaluates_made _ _ t

/-! ## Operations -/

theorem identity_refines (hints : Hints) :
    Refines (l.identity hints) Entity.Represents
      (Construction.identity.denote l.features hints) := by
  refine refines_accept (hints.hosted_require _) fun t ht => ?_
  have wf := Hints.wellFormed_resolve (by simp) ht
  refine Library.make_chooses (wellFormed_one _ wf) rfl (lookup_identity wf) fun p hp hl => ?_
  obtain rfl := Descriptor.primitive?_eq_some_iff.mp (Option.filter_eq_some_iff.mp hp).1
  exact make_given hl (fun _ _ => rfl) (.identity p)

theorem clamp_refines (lower upper : Value) (hints : Hints) :
    Refines (l.clamp lower upper hints) Entity.Represents
      ((Construction.clamp lower upper).denote l.features hints) := by
  refine refines_accept (hints.hosted_resolve _ lower.hosted_inferred) fun t ht => ?_
  have wf := Hints.wellFormed_resolve (fun _ => Value.wellFormed_inferred) ht
  refine Library.make_chooses (wellFormed_one _ wf) rfl (lookup_clamp wf) fun q hq hl => ?_
  obtain rfl := Descriptor.numeric?_eq_some_iff.mp hq
  exact make_bounded rfl hl (fun _ _ => rfl) Transformation.clamp_yields (fun _ _ _ => .clamp) _ _

theorem boundedSum_refines (lower upper : Value) (hints : Hints) :
    Refines (l.boundedSum lower upper hints) Entity.Represents
      ((Construction.boundedSum lower upper).denote l.features hints) := by
  refine refines_accept (hints.hosted_resolve _ lower.hosted_inferred) fun t ht => ?_
  have wf := Hints.wellFormed_resolve (fun _ => Value.wellFormed_inferred) ht
  have hb := wellFormed_one "T" wf
  refine Library.make_chooses hb rfl (lookup_boundedSum wf) fun p hp hl => ?_
  obtain rfl := Descriptor.float?_eq_some_iff.mp hp
  refine Library.make_guarded hb rfl fun hf => ?_
  exact make_bounded (q := .float p) hf hl (fun _ _ => rfl) Transformation.boundedSum_yields
    (fun _ _ _ => .boundedSum) _ _

theorem count_refines (hints : Hints) :
    Refines (l.count hints) Entity.Represents (Construction.count.denote l.features hints) := by
  refine refines_accept (hints.hosted_require _) fun t ht => ?_
  have wf := Hints.wellFormed_resolve (by simp) ht
  refine Library.make_chooses (wellFormed_one _ wf) rfl (lookup_count wf) fun p hp hl => ?_
  obtain rfl := Descriptor.primitive?_eq_some_iff.mp hp
  exact make_given hl (fun _ _ => rfl) (.count p)

/-- Noise in the chosen precision, of a scale in it. -/
theorem release_refines {name : String} {entry : Precision → Entry}
    {c : (p : Precision) → Binary p → Except Error Measurement}
    (table : ∀ {t : Descriptor}, t.WellFormed → Export.lookup ((Signature.kernel "meas" name ["T"]
      [.scale] .measurement [Features.floatingPoint]).symbol [t]) = t.float?.map entry)
    (body : ∀ p blob args, (entry p).body blob args = do
      Call.ofExcept (blob.expect [.float p])
      let scale ← Call.ofExcept (do (← args.one).toSlot (.numeric (.float p)) "scale")
      Call.give (.measurement (← Call.ofCore (c p scale))))
    (yields : ∀ p x, Yields Error.WellFormed (fun _ => True) (c p x))
    (built : ∀ p x m, c p x = .ok m → m.Built) (scale : Value) (hints : Hints) :
    Refines (do
        let t ← Action.ofExcept (hints.resolve "T" scale.inferred)
        l.make .measurement (.kernel "meas" name ["T"] [.scale] .measurement
          [Features.floatingPoint]) [("T", t)] [.value scale]) Entity.Represents (do
      let p ← some? (← accept (hints.resolve "T" scale.inferred)).float?
      require (l.features.isEnabled Features.floatingPoint)
      let x ← accept (scale.toNumeric (.float p))
      return .measurement (← core (c p x))) := by
  refine refines_accept (hints.hosted_resolve _ scale.hosted_inferred) fun t ht => ?_
  have wf := Hints.wellFormed_resolve (fun _ => Value.wellFormed_inferred) ht
  have hb := wellFormed_one "T" wf
  refine Library.make_chooses hb rfl (table wf) fun p hp hl => ?_
  obtain rfl := Descriptor.float?_eq_some_iff.mp hp
  refine Library.make_guarded hb rfl fun hf => ?_
  exact make_scaled (q := .float p) hf hl (body p) (yields p) (built p) scale

theorem laplace_refines (scale : Value) (hints : Hints) :
    Refines (l.laplace scale hints) Entity.Represents
      ((Construction.laplace scale).denote l.features hints) :=
  release_refines lookup_laplace (fun _ _ _ => rfl) (fun _ => Measurement.laplace_yields)
    (fun _ _ _ => .laplace) scale hints

theorem gaussian_refines (scale : Value) (hints : Hints) :
    Refines (l.gaussian scale hints) Entity.Represents
      ((Construction.gaussian scale).denote l.features hints) :=
  release_refines lookup_gaussian (fun _ _ _ => rfl) (fun _ => Measurement.gaussian_yields)
    (fun _ _ _ => .gaussian) scale hints

theorem geometric_refines (scale : Binary .double) (hints : Hints) :
    Refines (l.geometric scale hints) Entity.Represents
      ((Construction.geometric scale).denote l.features hints) := by
  refine refines_accept (hints.hosted_resolve _ (hosted_ok _)) fun t ht => ?_
  have wf := Hints.wellFormed_resolve (fun _ h => Except.ok.inj h ▸ .primitive _) ht
  have hb := wellFormed_one "T" wf
  refine Library.make_chooses hb rfl (lookup_geometric wf) fun k hk hl => ?_
  obtain rfl := Descriptor.integer?_eq_some_iff.mp hk
  have types : ∀ d ∈ [Descriptor.integer k], d.WellFormed := by simpa using wf
  have shape : template "f64" [("T", Descriptor.integer k)] = .ok (.float .double) :=
    template_primitive (.numeric (.float .double)) _
  have prepared : Signature.geometric.prepared l.features [("T", .integer k)]
      [.value (.float scale)] = ((.ok () : Except Failure Unit) >>= fun _ =>
        .ok ([.integer k], Frame.empty.withPayload (.double scale))) := by
    rw [Signature.prepared_eq rfl rfl rfl]
    have pushed : Frame.pushedAll [("T", Descriptor.integer k)]
        (Signature.geometric.parameters.zip [.value (.float scale)]) .empty =
          .ok (Frame.empty.withPayload (.double scale)) := by
      simp only [Signature.geometric, Signature.kernel, List.zip_cons_cons, List.zip_nil_left,
        Frame.pushedAll, Frame.pushed_byValue (p := ⟨"scale", "f64", .byValue⟩) rfl shape]
      rfl
    rw [pushed]
    rfl
  refine Library.make_refines (x := .ok ()) (c := fun _ => Measurement.geometric k scale)
    (r := .measurement) (w := .measurement) hb rfl hl prepared
    (fun _ => Measurement.geometric_yields k scale) (fun _ _ h => ⟨.geometric h, rfl⟩) fun _ t => ?_
  refine (Call.evaluates_ok (Blob.expect_argsText types) t).bind_ok ?_
  refine (Call.evaluates_ok rfl t).bind_ok ?_
  show Evaluates (do
    let y ← Call.ofCore (Measurement.geometric k (Payload.double scale).toDouble)
    Call.give (.measurement y)) t _ t
  rw [Payload.toDouble_double]
  exact Call.evaluates_made _ _ t

omit [Elementary] in
theorem template_sensitivity (t : Descriptor) :
    template "L1Sensitivity<T>" [("T", t)] = .ok (.generic "L1Sensitivity" [t]) := by
  have named : Descriptor.WellFormed (.named "T") :=
    .generic (by decide) (by simp)
  have text : (Descriptor.generic "L1Sensitivity" [.named "T"]).toText = "L1Sensitivity<T>" :=
    rfl
  rw [← text, template_toText _ (.generic (by decide) (by simpa using named))]
  simp [Descriptor.substitute, Descriptor.substituteList, Descriptor.named]

omit [Elementary] in
/-- The metrics of a mean are read on the other side. -/
theorem meanMetrics_argsText {p : Precision} {input output : Metric}
    (h : output = .l1Sensitivity (.float p) ∨ output = .l2Sensitivity (.float p)) :
    (do Entry.meanMetrics p (← (Blob.text (Descriptor.argsText
      [input.descriptor, output.descriptor])).types 2)) = .ok (input, output) := by
  have types : ∀ d ∈ [input.descriptor, output.descriptor], d.WellFormed := by
    simp [Metric.wellFormed]
  have read := Blob.types_argsText types
  have metric : ∀ m : Metric, Metric.ofDescriptor m.descriptor = .ok m := fun m => by
    simp [Metric.ofDescriptor, Metric.ofDescriptor?_descriptor]
  have sensitivity : Transformation.isSensitivity p output = true := by
    rcases h with rfl | rfl <;> simp [Transformation.isSensitivity]
  simp only [List.length_cons, List.length_nil] at read
  simp only [read, bind, Except.bind, Entry.meanMetrics, metric, Except.mapError, sensitivity,
    if_true]
  rfl

omit [Elementary] in
theorem ofExcept_bind {α β : Type} (r : Except Failure α) (f : α → Except Failure β) :
    Action.ofExcept (r >>= f) = Action.ofExcept r >>= fun x => Action.ofExcept (f x) := by
  cases r <;> rfl

omit [Elementary] in
/-- The bounds of a mean are placed in slots, and its size in a word. -/
theorem prepared_mean {features : Features} {i o : Descriptor} {p : Precision}
    (hf : features.require Signature.boundedMean.features Signature.boundedMean.qualifiedName =
      .ok ()) {n : Nat} {m : Bounded .i64} (hm : m.val = n) (hn : n < 2 ^ 63) (lower upper : Value) :
    Signature.boundedMean.prepared features [("MO", o), ("MI", i), ("T", .float p)]
        [.value lower, .value upper, .value (.int m)] =
      (bounds lower upper (.float p) >>= fun x =>
        .ok ([i, o], (bounded (.float p) x).withPayload (.integer n))) := by
  have pushed := pushedAll_bounds (b := [("MO", o), ("MI", i), ("T", .float p)]) (q := .float p) rfl
    lower upper [(⟨"n", "u64", .byValue⟩, .value (.int m))]
  have size := fun f => Frame.pushed_size (f := f) (b := [("MO", o), ("MI", i), ("T", .float p)])
    (p := ⟨"n", "u64", .byValue⟩) rfl rfl hm hn
  rw [Signature.prepared_eq hf rfl rfl]
  refine (congrArg (· >>= _) pushed).trans ((bind_assoc _ _ _).trans ?_)
  refine bind_congr fun x => ?_
  rw [Frame.pushedAll, size]
  rfl

/-- The mean, once its types are chosen. -/
theorem make_mean {i o d : Descriptor} (hb : Bindings.WellFormed [("MO", o), ("MI", i), ("T", d)])
    (hd : ∀ name c, o = .generic name [c] → d = c) {n : Nat} {m : Bounded .i64} (hm : m.val = n)
    (hn : n < 2 ^ 63) (lower upper : Value) :
    Refines (l.make .transformation .boundedMean [("MO", o), ("MI", i), ("T", d)]
      [.value lower, .value upper, .value (.int m)]) Entity.Represents (do
        let (p, input, output) ← some? (Metric.ofMean? i o)
        require (l.features.isEnabled Features.floatingPoint)
        let x ← accept (lower.toNumeric (.float p))
        let y ← accept (upper.toNumeric (.float p))
        return .transformation (← core (Transformation.boundedMean p x y n input output))) := by
  have wi : i.WellFormed := hb ("MI", i) (by simp)
  have wo : o.WellFormed := hb ("MO", o) (by simp)
  refine Library.make_chooses hb rfl (lookup_boundedMean wi wo) fun (p, input, output) hx hl => ?_
  obtain ⟨rfl, rfl, -, output_eq⟩ := Metric.ofMean?_eq_some_iff.mp hx
  obtain rfl : d = .float p := by
    rcases output_eq with rfl | rfl <;> exact hd _ _ rfl
  refine Library.make_guarded hb rfl fun hf => ?_
  have made := Library.make_refines (r := .transformation) (w := .transformation)
    (c := fun i => Transformation.boundedMean p i.1 i.2 n input output) hb rfl hl
    (prepared_mean hf hm hn lower upper)
    (fun i => Transformation.boundedMean_yields i.1 i.2 n input output)
    (fun i y h => ⟨.boundedMean h, rfl⟩) fun i t => ?_
  · rwa [accept_bounds] at made
  refine (Call.evaluates_ok (meanMetrics_argsText output_eq) t).bind_ok ?_
  refine (Call.evaluates_ok rfl t).bind_ok ?_
  refine (Call.evaluates_ok (Payload.toSlot_number (q := .float p) i.1 "lower") t).bind_ok ?_
  refine (Call.evaluates_ok (Payload.toSlot_number (q := .float p) i.2 "upper") t).bind_ok ?_
  show Evaluates (do
    let y ← Call.ofCore (Transformation.boundedMean p i.1 i.2 (Payload.integer n).toUnsigned input
      output)
    Call.give (.transformation y)) t _ t
  rw [Payload.toUnsigned_integer (by omega)]
  exact Call.evaluates_made _ _ t

theorem boundedMean_refines (lower upper : Value) (n : Nat) (hints : Hints) :
    Refines (l.boundedMean lower upper n hints) Entity.Represents
      ((Construction.boundedMean lower upper n).denote l.features hints) := by
  refine refines_accept (Library.hosted_size _ n) fun m hm => ?_
  obtain ⟨hm, hn⟩ := size_eq_ok hm
  unfold Library.meanBindings
  simp only [ofExcept_bind, bind_assoc, template_sensitivity]
  refine refines_accept (hints.hosted_resolve _ lower.hosted_inferred) fun t ht => ?_
  refine refines_accept (hints.hosted_resolve _ (hosted_ok _)) fun i hi => ?_
  refine refines_accept (hints.hosted_resolve _ (hosted_ok _)) fun o ho => ?_
  have wt := Hints.wellFormed_resolve (fun _ => Value.wellFormed_inferred) ht
  have wi := Hints.wellFormed_resolve (fun d h => Except.ok.inj h ▸
    Metric.symmetricDistance.wellFormed) hi
  have wo := Hints.wellFormed_resolve (fun d h => Except.ok.inj h ▸ .generic
    (by decide) (by simpa using wt)) ho
  refine make_mean ?_ (fun name c h => by rw [h]) hm hn lower upper
  refine fun x hx => ?_
  simp only [List.mem_cons, List.not_mem_nil, or_false] at hx
  rcases hx with rfl | rfl | rfl
  · exact wo
  · exact wi
  · split
    · cases wo with
      | generic _ h => simpa using h
    · exact wt

end Kernels

/-! ## Constructions -/

/-- The entity represents the mechanism, whichever role it has. -/
def AnyEntity.Represents [Elementary] : AnyEntity → Mechanism → Prop
  | transformation t, m => t.Represents m
  | measurement e, m => e.Represents m

/-- A construction makes the entity that represents what it denotes. -/
theorem Construction.run_refines [Elementary] (l : Library) (hints : Hints) (c : Construction) :
    Refines (c.run l hints) AnyEntity.Represents (c.denote l.features hints) := by
  cases c with
  | identity => exact (identity_refines hints).map fun _ _ h => h
  | clamp lower upper => exact (clamp_refines lower upper hints).map fun _ _ h => h
  | boundedSum lower upper => exact (boundedSum_refines lower upper hints).map fun _ _ h => h
  | boundedMean lower upper n => exact (boundedMean_refines lower upper n hints).map fun _ _ h => h
  | count => exact (count_refines hints).map fun _ _ h => h
  | laplace scale => exact (laplace_refines scale hints).map fun _ _ h => h
  | gaussian scale => exact (gaussian_refines scale hints).map fun _ _ h => h
  | geometric scale => exact (geometric_refines scale hints).map fun _ _ h => h

end PrivateRelease.Host
