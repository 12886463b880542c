import PrivateRelease.Proofs.Boundary.Slots
import PrivateRelease.Proofs.Host.Requests

/-!
# Agreement on types

The host chooses an entry point by a text, and a slot by what is bound to the type of a parameter; the
entry point was written for its own types. Both sides agree: the symbol of a call has a single reading,
which is that of the table, and a scalar is placed as the entry point reads it.
-/

namespace PrivateRelease.Host

open Boundary

/-! ## Operations that make entities -/

namespace Signature

def makers : List Signature :=
  catalog.filter fun s => s.returns = .transformation ∨ s.returns = .measurement

/-- The type that `T` stands for beside the given types. A mean and a fixed delta have it from the
distance that is their last type. -/
def carrier? (s : Signature) (types : List Descriptor) : Option Descriptor :=
  match s.typeParameters, types with
  | ["T"], [t] => some t
  | ["MO"], [.generic _ [t]] => some t
  | ["MI", "MO"], [_, .generic _ [t]] => some t
  | _, _ => none

/-- The type at which a parameter is placed. -/
def slot? (s : Signature) (types : List Descriptor) (p : Parameter) : Option Descriptor :=
  if p.passing ≠ .byReference then none
  else if p.shape = "T" then s.carrier? types
  else some (.float .double)

theorem passing_of_mem_makers : ∀ s ∈ makers, ∀ p ∈ s.parameters, p.passing ≠ .object := by
  decide

theorem shape_of_mem_makers : ∀ s ∈ makers, ∀ p ∈ s.parameters, p.passing = .byReference →
    p.shape = "T" ∨ p.shape = "f64" := by
  decide

theorem length_parameters : ∀ s ∈ makers, s.parameters.length ≤ 3 := by
  decide

theorem instantiated_of_mem_makers :
    ∀ s ∈ makers, s.instantiated = true ∨ s.typeParameters = [] := by
  decide

/-- Every operation is in the table with as many types as it has parameters for. -/
theorem exists_row : ∀ s ∈ makers, ∃ e ∈ Export.all, e.module = s.module ∧ e.operation = s.name ∧
    e.types.length = s.typeParameters.length := by
  decide +kernel

/-- The table: an entry point reads slots exactly where the host places scalars, and at the types that
the host knows from the types of the entry point. -/
theorem slotAt_row {s : Signature} (hs : s ∈ makers) {e : Export} (he : e ∈ Export.all)
    (hm : e.module = s.module) (ho : e.operation = s.name) (i : Nat) :
    (e.entry.slotAt i).map .primitive = s.parameters[i]?.bind (s.slot? e.types) := by
  have rows : ∀ s ∈ makers, ∀ e ∈ Export.all, e.module = s.module → e.operation = s.name →
      ∀ i < 3, (e.entry.slotAt i).map .primitive = s.parameters[i]?.bind (s.slot? e.types) := by
    decide +kernel
  by_cases hi : i < 3
  · exact rows s hs e he hm ho i hi
  · have above : e.entry.slotAt i = none := by
      unfold Entry.slotAt
      split <;> first | rfl | omega
    have short := length_parameters s hs
    rw [above, List.getElem?_eq_none (by omega)]
    rfl

end Signature

/-- What the host places by reference has a type that the table tells. -/
theorem Signature.isSome_slot : ∀ s ∈ makers, ∀ e ∈ Export.all, e.module = s.module →
    e.operation = s.name → ∀ p ∈ s.parameters, p.passing = .byReference →
      (s.slot? e.types p).isSome := by
  decide +kernel

/-! ## Sound orders -/

/-- An operation that makes an entity, its types readable and `T` bound to what it stands for. -/
structure Order.Sound (o : Order) : Prop where
  maker : o.signature ∈ Signature.makers
  bound : o.bindings.WellFormed
  carrier : ∀ types d, o.signature.types o.bindings = .ok types →
    o.signature.carrier? types = some d → o.bindings.lookup "T" = some d

theorem Construction.sound_one {r : Role} {s : Signature} {name : String} {t : Descriptor}
    {vs : List Value} (hs : s ∈ Signature.makers) (hn : s.typeParameters = [name])
    (ho : name ≠ "MO") (ht : t.WellFormed) : (given r s [(name, t)] vs).Sound where
  maker := hs
  bound := wellFormed_one name ht
  carrier := by
    intro types d chosen hd
    obtain rfl : [t] = types := by
      simpa [given, Signature.types, hn, pure, Except.pure, bind, Except.bind] using chosen
    unfold Signature.carrier? at hd
    split at hd
    · next hT hl =>
      obtain rfl : name = "T" := by simpa [given, hn] using hT
      cases hl
      exact (lookup_one "T").trans hd
    · next hMO _ =>
      exact absurd (by simpa [given, hn] using hMO) ho
    · next h _ => simp [given, hn] at h
    · cases hd

theorem Construction.sound_boundedMean {lower upper : Value} {n : Bounded .i64} {hints : Hints}
    {b : Bindings} (h : Library.meanBindings lower hints = .ok b) :
    (given .transformation .boundedMean b [lower, upper, .int n]).Sound := by
  unfold Library.meanBindings at h
  obtain ⟨t, ht, h⟩ := bind_eq_ok_iff.mp h
  obtain ⟨i, hi, h⟩ := bind_eq_ok_iff.mp h
  obtain ⟨o, ho, h⟩ := bind_eq_ok_iff.mp h
  cases h
  rw [template_sensitivity] at ho
  have wt := Hints.wellFormed_resolve (fun _ => Value.wellFormed_inferred) ht
  have wi := Hints.wellFormed_resolve (fun d h => Except.ok.inj h ▸
    Metric.symmetricDistance.wellFormed) hi
  have wo := Hints.wellFormed_resolve (fun d h => Except.ok.inj h ▸ .generic
    (by decide) (by simpa using wt)) ho
  refine ⟨show Signature.boundedMean ∈ Signature.makers by decide, ?_, ?_⟩
  · intro x hx
    simp only [given, List.mem_cons, List.not_mem_nil, or_false] at hx
    rcases hx with rfl | rfl | rfl
    · exact wo
    · exact wi
    · split
      · cases wo with
        | generic _ h => simpa using h
      · exact wt
  · intro types d chosen hd
    obtain rfl : [i, o] = types := Except.ok.inj chosen
    obtain ⟨name, rfl⟩ : ∃ name, o = .generic name [d] := by
      simp only [given, Signature.boundedMean, Signature.kernel, Signature.carrier?] at hd
      split at hd
      · next h _ => simp at h
      · next h _ => simp at h
      · next h =>
        cases h
        cases hd
        exact ⟨_, rfl⟩
      · cases hd
    rfl

/-- An operation without types has none to be at odds about. -/
theorem Order.sound_plain {o : Order} (hs : o.signature ∈ Signature.makers)
    (hn : o.signature.typeParameters = []) (hb : o.bindings = []) : o.Sound where
  maker := hs
  bound := by simp [hb, Bindings.WellFormed]
  carrier := by
    intro types d chosen hd
    simp [Signature.carrier?, hn] at hd

theorem curveMeasure_sound {m : Entity .measurement} {measure carrier : Descriptor}
    (h : curveMeasure m = .ok (measure, carrier)) :
    measure.WellFormed ∧ ∃ name, measure = .generic name [carrier] := by
  unfold curveMeasure at h
  split at h
  case isFalse => cases h
  dsimp only at h
  split at h
  · cases h
  · next hp =>
    split at h
    · cases h
      exact ⟨(Descriptor.parse_eq_ok_iff.mp hp).1, _, rfl⟩
    · cases h

/-- An operation on one type, which is hinted or has a fallback. -/
theorem Construction.sound_chosen {r : Role} {s : Signature} {name : String} {hints : Hints}
    {fallback : Except Failure Descriptor} {vs : List Value} {o : Order}
    (hs : s ∈ Signature.makers) (hn : s.typeParameters = [name]) (hMO : name ≠ "MO")
    (hf : ∀ d, fallback = .ok d → d.WellFormed)
    (h : (hints.resolve name fallback >>= fun t => pure (given r s [(name, t)] vs)) = .ok o) :
    o.Sound := by
  obtain ⟨t, ht, h⟩ := bind_eq_ok_iff.mp h
  cases h
  exact sound_one hs hn hMO (Hints.wellFormed_resolve hf ht)

theorem Construction.sound {c : Construction} {hints : Hints} {o : Order}
    (h : c.order hints = .ok o) : o.Sound := by
  cases c with
  | identity => exact sound_chosen (by decide) rfl (by decide) (by simp) h
  | clamp lower upper =>
    exact sound_chosen (by decide) rfl (by decide) (fun _ => Value.wellFormed_inferred) h
  | boundedSum lower upper =>
    exact sound_chosen (by decide) rfl (by decide) (fun _ => Value.wellFormed_inferred) h
  | boundedMean lower upper n =>
    obtain ⟨n, _, h⟩ := bind_eq_ok_iff.mp h
    obtain ⟨b, hb, h⟩ := bind_eq_ok_iff.mp h
    cases h
    exact sound_boundedMean hb
  | count => exact sound_chosen (by decide) rfl (by decide) (by simp) h
  | laplace scale =>
    exact sound_chosen (by decide) rfl (by decide) (fun _ => Value.wellFormed_inferred) h
  | gaussian scale =>
    exact sound_chosen (by decide) rfl (by decide) (fun _ => Value.wellFormed_inferred) h
  | geometric scale =>
    exact sound_chosen (by decide) rfl (by decide) (fun d h => Except.ok.inj h ▸ .primitive _) h

theorem Request.sound_chained {r : Role} {s : Signature} {first : Entity .transformation}
    {second : Entity r} {o : Order} (hs : s ∈ Signature.makers) (hn : s.typeParameters = [])
    (h : chained s first second = .ok o) : o.Sound := by
  obtain ⟨_, _, h⟩ := bind_eq_ok_iff.mp h
  cases h
  exact Order.sound_plain hs hn rfl

theorem Request.sound {q : Request} {o : Order} (h : q.order = .ok o) : o.Sound := by
  cases q with
  | make c hints => exact Construction.sound h
  | chain first second =>
    cases first with
    | measurement m => cases h
    | transformation t =>
      cases second with
      | transformation u =>
        exact sound_chained (s := .chainTransformations) (by decide) rfl h
      | measurement m => exact sound_chained (s := .chainMeasurement) (by decide) rfl h
  | chainTransformations first second =>
    exact sound_chained (s := .chainTransformations) (by decide) rfl h
  | chainMeasurement first second =>
    exact sound_chained (s := .chainMeasurement) (by decide) rfl h
  | compose parts policy =>
    obtain ⟨_, _, h⟩ := bind_eq_ok_iff.mp h
    cases h
    exact Order.sound_plain (show Signature.compose ∈ Signature.makers by decide) rfl rfl
  | amplify part population records measure =>
    obtain ⟨n, _, h⟩ := bind_eq_ok_iff.mp h
    obtain ⟨d, hd, h⟩ := bind_eq_ok_iff.mp h
    obtain ⟨e, he, h⟩ := bind_eq_ok_iff.mp h
    cases h
    refine ⟨show Signature.amplify ∈ Signature.makers by decide, ?_, ?_⟩
    · simpa [Bindings.WellFormed] using
        ⟨TypeHint.wellFormed_toDescriptor hd, TypeHint.wellFormed_toDescriptor he⟩
    · intro types d _ none
      simp [Signature.carrier?, Signature.amplify, Signature.kernel] at none
  | fixDelta part delta =>
    obtain ⟨⟨measure, carrier⟩, hm, h⟩ := bind_eq_ok_iff.mp h
    cases h
    obtain ⟨wf, name, rfl⟩ := curveMeasure_sound hm
    have inner : carrier.WellFormed := by
      cases wf with
      | generic _ h => simpa using h
    refine ⟨show Signature.fixDelta ∈ Signature.makers by decide, ?_, ?_⟩
    · simpa [Bindings.WellFormed] using ⟨wf, inner⟩
    · intro types d chosen hd
      obtain rfl : [.generic name [carrier]] = types := Except.ok.inj chosen
      obtain rfl : carrier = d := Option.some.inj hd
      rfl

/-! ## Placed scalars -/

theorem Value.toSlot_eq_ok {v : Value} {d : Descriptor} {r : Reference} (h : v.toSlot d = .ok r) :
    ∃ t x, d = .primitive t ∧ v.toScalar t = .ok x ∧ r = .slot t x := by
  unfold toSlot at h
  split at h
  · obtain ⟨x, hx, h⟩ := bind_eq_ok_iff.mp h
    cases h
    exact ⟨.bool, x, rfl, hx, rfl⟩
  · next q =>
    obtain ⟨x, hx, h⟩ := bind_eq_ok_iff.mp h
    cases h
    exact ⟨.numeric q, x, rfl, hx, rfl⟩
  · cases h

namespace Frame

variable {b : Bindings}

/-- What is passed by reference lies in a slot of the type that the shape of its parameter has. -/
def Placed (b : Bindings) (arg : Parameter × Argument) (payload : Payload) : Prop :=
  arg.1.passing = .byReference → ∃ v t x, arg.2 = .value v ∧
    template arg.1.shape b = .ok (.primitive t) ∧ v.toScalar t = .ok x ∧
      payload = .reference (.slot t x)

theorem placed_pushed {f f' : Frame} {p : Parameter} {a : Argument}
    (h : f.pushed b p a = .ok f') :
    ∃ x, f'.payloads = f.payloads ++ [x] ∧ Placed b (p, a) x := by
  unfold pushed at h
  split at h
  · next passing =>
    obtain ⟨d, _, h⟩ := bind_eq_ok_iff.mp h
    obtain ⟨w, _, h⟩ := bind_eq_ok_iff.mp h
    cases h
    exact ⟨w, rfl, fun byReference => nomatch passing.symm.trans byReference⟩
  · next v passing =>
    obtain ⟨d, hd, h⟩ := bind_eq_ok_iff.mp h
    obtain ⟨r, hr, h⟩ := bind_eq_ok_iff.mp h
    cases h
    obtain ⟨t, x, rfl, hx, rfl⟩ := Value.toSlot_eq_ok hr
    exact ⟨_, rfl, fun _ => ⟨v, t, x, rfl, hd, hx, rfl⟩⟩
  · next passing =>
    obtain ⟨d, _, h⟩ := bind_eq_ok_iff.mp h
    obtain ⟨o, _, h⟩ := bind_eq_ok_iff.mp h
    cases h
    exact ⟨_, rfl, fun byReference => nomatch passing.symm.trans byReference⟩
  · next passing =>
    cases h
    exact ⟨_, rfl, fun byReference => nomatch passing.symm.trans byReference⟩
  · next passing =>
    cases h
    exact ⟨_, rfl, fun byReference => nomatch passing.symm.trans byReference⟩
  · cases h

theorem placed_pushedAll {args : List (Parameter × Argument)} {f f' : Frame}
    (h : pushedAll b args f = .ok f') :
    ∃ xs, f'.payloads = f.payloads ++ xs ∧ List.Forall₂ (Placed b) args xs := by
  induction args generalizing f with
  | nil =>
    cases h
    exact ⟨[], by simp, .nil⟩
  | cons arg args ih =>
    obtain ⟨p, a⟩ := arg
    obtain ⟨g, hg, h⟩ := bind_eq_ok_iff.mp h
    obtain ⟨x, first, placed⟩ := placed_pushed hg
    obtain ⟨xs, rest, all⟩ := ih h
    exact ⟨x :: xs, by simp [rest, first], .cons placed all⟩

end Frame

theorem Order.native_eq_ok {o : Order} {l : Library} {c : NativeCall} (h : o.native l = .ok c) :
    c.signature = o.signature ∧ o.signature.types o.bindings = .ok c.types ∧
      o.arguments.length = o.signature.parameters.length ∧
      List.Forall₂ (Frame.Placed o.bindings) (o.signature.parameters.zip o.arguments)
        c.payloads := by
  obtain ⟨⟨types, frame⟩, prepared, h⟩ := bind_eq_ok_iff.mp h
  cases h
  have chosen := Signature.types_of_prepared prepared
  obtain ⟨_, _, prepared⟩ := bind_eq_ok_iff.mp prepared
  split at prepared
  · cases prepared
  · next counted =>
    obtain ⟨types', _, prepared⟩ := bind_eq_ok_iff.mp prepared
    obtain ⟨frame', pushed, prepared⟩ := bind_eq_ok_iff.mp prepared
    cases prepared
    obtain ⟨xs, payloads, placed⟩ := Frame.placed_pushedAll pushed
    refine ⟨rfl, chosen, by simpa using counted, ?_⟩
    rw [show frame.payloads = xs from payloads]
    exact placed

/-! ## Agreement -/

theorem exists_of_forall₂ {α β : Type} {R : α → β → Prop} {xs : List α} {ys : List β}
    (h : List.Forall₂ R xs ys) {i : Nat} {x : α} (hx : xs[i]? = some x) :
    ∃ y, ys[i]? = some y ∧ R x y := by
  obtain ⟨less, rfl⟩ := List.getElem?_eq_some_iff.mp hx
  have more : i < ys.length := h.length_eq ▸ less
  exact ⟨ys[i], List.getElem?_eq_getElem more, h.get less more⟩

variable [Elementary]

/-- Both sides of a call of an entry point mean the same types. -/
structure NativeCall.Agrees (c : NativeCall) (arguments : List Argument) (entry : Entry) : Prop where
  /-- The entry point is called with the text of the types and with the payloads. -/
  called : invoke c.symbol c.blob c.payloads =
    liftM (entry.call (.text c.blob) (.ofList c.payloads))
  /-- The types are those that the entry point has in the table, … -/
  registered : ⟨c.signature.module, c.signature.name, c.types, entry⟩ ∈ Export.all
  /-- … where nothing else has the symbol. -/
  only : ∀ e ∈ Export.all, e.symbol = c.symbol →
    e = ⟨c.signature.module, c.signature.name, c.types, entry⟩
  /-- The text of the types is read as these types. -/
  read : Descriptor.parseArgs c.blob = .ok c.types
  /-- No other types make the symbol of the operation. -/
  unique : ∀ types : List Descriptor, (∀ d ∈ types, d.WellFormed) →
    types.length = c.signature.typeParameters.length → c.signature.symbol types = c.symbol →
      types = c.types
  /-- A scalar that is passed by reference is placed at the type at which it is read there. -/
  placed : ∀ i p, c.signature.parameters[i]? = some p → p.passing = .byReference →
    ∃ v t x, arguments[i]? = some (.value v) ∧ v.toScalar t = .ok x ∧
      c.payloads[i]? = some (.reference (.slot t x)) ∧ entry.slotAt i = some t ∧
      ∀ what, (Payload.reference (.slot t x)).toSlot t what = .ok x
  /-- No other slot is read, … -/
  others : ∀ i t, entry.slotAt i = some t →
    ∃ p, c.signature.parameters[i]? = some p ∧ p.passing = .byReference
  /-- … and none at another type. -/
  blind : ∀ payloads, entry.Indistinct c.payloads payloads →
    entry.call (.text c.blob) (.ofList c.payloads) = entry.call (.text c.blob) (.ofList payloads)

omit [Elementary] in
/-- What the shape of a parameter stands for is what the types tell. -/
theorem Order.Sound.slot_eq {o : Order} (ho : o.Sound) {types : List Descriptor} {p : Parameter}
    {t : Primitive} (chosen : o.signature.types o.bindings = .ok types)
    (hp : p ∈ o.signature.parameters) (passing : p.passing = .byReference)
    (ht : template p.shape o.bindings = .ok (.primitive t))
    (some : (o.signature.slot? types p).isSome) :
    o.signature.slot? types p = .some (.primitive t) := by
  obtain ⟨d, hd⟩ := Option.isSome_iff_exists.mp some
  rw [hd]
  rcases Signature.shape_of_mem_makers _ ho.maker p hp passing with shape | shape
  · have carrier : o.signature.carrier? types = .some d := by
      simpa [Signature.slot?, passing, shape] using hd
    rw [shape, template_named (by decide) (ho.carrier types d chosen carrier)] at ht
    rw [Except.ok.inj ht]
  · have fixed : d = .float .double := by
      simpa [Signature.slot?, passing, shape, eq_comm] using hd
    rw [shape] at ht
    have double := template_primitive (.numeric (.float .double)) o.bindings
    rw [fixed, ← Except.ok.inj (double.symm.trans ht)]
    rfl

omit [Elementary] in
/-- Operations without an entry point for every choice of types have no types. -/
theorem Signature.symbol_eq {s : Signature} (hs : s ∈ makers) {types : List Descriptor}
    (hl : types.length = s.typeParameters.length) :
    s.symbol types = Descriptor.symbol s.module s.name types := by
  unfold symbol
  rcases instantiated_of_mem_makers s hs with instantiated | plain
  · rw [if_pos instantiated]
  · rw [plain] at hl
    rw [List.length_eq_zero_iff.mp hl, ite_self]

omit [Elementary] in
/-- A symbol that names an entry point is the symbol of one row of the table and no other. -/
theorem Signature.lookup_eq_some_iff {s : Signature} (hs : s ∈ makers) {types : List Descriptor}
    (hw : ∀ d ∈ types, d.WellFormed) (hl : types.length = s.typeParameters.length) {entry : Entry} :
    Export.lookup (s.symbol types) = some entry ↔
      ⟨s.module, s.name, types, entry⟩ ∈ Export.all := by
  obtain ⟨row, mem, module, name, length⟩ := exists_row s hs
  rw [symbol_eq hs hl, ← module, ← name, Export.lookup_eq_some_iff mem hw (hl.trans length.symm)]

omit [Elementary] in
theorem Signature.length_types {s : Signature} {b : Bindings} {types : List Descriptor}
    (h : s.types b = .ok types) : types.length = s.typeParameters.length :=
  length_of_mapM h

omit [Elementary] in
theorem Entry.numeric_of_slotAt {entry : Entry} {i : Nat} {t : Primitive}
    (h : entry.slotAt i = some t) : ∃ q, t = .numeric q := by
  unfold Entry.slotAt at h
  split at h <;> cases h <;> exact ⟨_, rfl⟩

/-- A sound order agrees with every entry point that it reaches. -/
theorem Order.Sound.agrees {o : Order} (ho : o.Sound) {l : Library} {c : NativeCall} {entry : Entry}
    (hc : o.native l = .ok c) (he : Export.lookup c.symbol = some entry) :
    c.Agrees o.arguments entry := by
  obtain ⟨signature, chosen, counted, passed⟩ := native_eq_ok hc
  have maker : c.signature ∈ Signature.makers := signature ▸ ho.maker
  have wf : ∀ d ∈ c.types, d.WellFormed := Signature.types_wellFormed ho.bound chosen
  have length : c.types.length = c.signature.typeParameters.length :=
    signature ▸ Signature.length_types chosen
  have row := (Signature.lookup_eq_some_iff maker wf length).mp he
  have symbol := Signature.symbol_eq maker length
  refine ⟨?called, row, ?only, Descriptor.parseArgs_argsText wf, ?unique, ?placed, ?others,
    fun payloads same => ?blind⟩
  case called =>
    have free : Text.NulFree c.blob := Descriptor.nulFree_argsText wf
    have clean : c.blob.toList.contains '\x00' = false := by simpa [Text.NulFree] using free
    unfold invoke
    rw [he]
    simp only [clean]
    rfl
  case only =>
    exact fun e mem same => Export.eq_of_symbol mem row (same.trans symbol)
  case unique =>
    intro types hw hl same
    have reading := symbol.symm.trans (same.symm.trans (Signature.symbol_eq maker hl))
    exact (Export.types_eq_of_symbol row hw (by simp [length, hl]) reading).symm
  case placed =>
    intro i p hp passing
    rw [← signature] at counted passed chosen
    have less : i < o.arguments.length := counted ▸ (List.getElem?_eq_some_iff.mp hp).1
    have zipped : (c.signature.parameters.zip o.arguments)[i]? = some (p, o.arguments[i]) :=
      List.getElem?_zip_eq_some.mpr ⟨hp, List.getElem?_eq_getElem less⟩
    obtain ⟨payload, at_i, placed⟩ := exists_of_forall₂ passed zipped
    obtain ⟨v, t, x, value, shape, scalar, rfl⟩ := placed passing
    have told := Signature.slotAt_row maker row rfl rfl i
    have slot := ho.slot_eq (signature ▸ chosen) (signature ▸ List.mem_of_getElem? hp) passing shape
      (signature ▸ Signature.isSome_slot _ maker _ row rfl rfl p (List.mem_of_getElem? hp) passing)
    rw [hp, Option.bind_some, signature, slot] at told
    obtain ⟨t', ht, same⟩ := Option.map_eq_some_iff.mp told
    obtain rfl : t' = t := Descriptor.primitive.inj same
    obtain ⟨q, rfl⟩ := Entry.numeric_of_slotAt ht
    exact ⟨v, _, x, value ▸ List.getElem?_eq_getElem less, scalar, at_i, ht, Payload.toSlot_number x⟩
  case others =>
    intro i t ht
    have told := Signature.slotAt_row maker row rfl rfl i
    rw [ht] at told
    obtain ⟨p, hp, slot⟩ := Option.bind_eq_some_iff.mp told.symm
    refine ⟨p, hp, ?_⟩
    by_contra other
    simp [Signature.slot?, other] at slot
  case blind => exact congrArg Envelope.ofCall (Entry.body_congr same _)

/-- Every call of the library that reaches an entry point agrees with it: the types it was chosen by
are those it has in the table, and it reads every scalar at the type at which it was placed. -/
theorem instantiation_agrees (l : Library) (q : Request) :
    (q.run l = Action.ofExcept q.order >>= fun o => Action.ofExcept (o.native l) >>= fun c =>
      invoke c.symbol c.blob c.payloads >>= o.receive) ∧
    ∀ o c entry, q.order = .ok o → o.native l = .ok c → Export.lookup c.symbol = some entry →
      c.Agrees o.arguments entry := by
  refine ⟨?_, fun o c entry ho hc he => (Request.sound ho).agrees hc he⟩
  rw [Request.run_eq_order]
  cases ho : q.order with
  | error _ => rfl
  | ok o =>
    exact Order.run_eq_native (Signature.passing_of_mem_makers _ (Request.sound ho).maker)

omit [Elementary] in
theorem Hints.resolve_descriptor {hints : Hints} {name : String} {d : Descriptor}
    {fallback : Except Failure Descriptor} (hd : d.WellFormed)
    (h : hints.lookup name = some (.descriptor d.toText)) : hints.resolve name fallback = .ok d := by
  unfold resolve
  rw [h]
  simp only [TypeHint.toDescriptor, Descriptor.parse_toText hd]
  rfl

omit [Elementary] in
/-- A mean whose hints contradict each other: the bounds are placed as the output metric says. -/
theorem instantiation_agrees_mean :
    letI := Elementary.machine
    let l : Library := ⟨Features.none.insert Features.floatingPoint⟩
    let hints : Hints := [("T", .descriptor "f64"), ("MI", .descriptor "HammingDistance"),
      ("MO", .descriptor "L2Sensitivity<f32>")]
    let q := Request.make (.boundedMean (.float 0) (.float 1) 10) hints
    ∃ o c, q.order = .ok o ∧ o.native l = .ok c ∧ c.Agrees o.arguments (.boundedMean .single) ∧
      c.payloads = [.reference (.slot (.numeric (.float .single)) (0 : Binary .single)),
        .reference (.slot (.numeric (.float .single)) (1 : Binary .single)), .integer 10] := by
  let _ := Elementary.machine
  intro l hints q
  let input := Metric.hammingDistance.descriptor
  let output := (Metric.l2Sensitivity (.float .single)).descriptor
  let o := Construction.given .transformation .boundedMean
    [("MO", output), ("MI", input), ("T", .float .single)]
    [.float 0, .float 1, .int ⟨10, by decide, by decide⟩]
  have bindings : Library.meanBindings (.float 0) hints =
      .ok [("MO", output), ("MI", input), ("T", .float .single)] := by
    have carrier : hints.resolve "T" (Value.float 0).inferred = .ok (.float .double) :=
      Hints.resolve_descriptor (.primitive _) rfl
    have from_hint : hints.resolve "MI" (.ok (.named "SymmetricDistance")) = .ok input :=
      Hints.resolve_descriptor (Metric.wellFormed _) rfl
    have to_hint : hints.resolve "MO" (template "L1Sensitivity<T>" [("T", .float .double)]) =
        .ok output := Hints.resolve_descriptor (Metric.wellFormed _) rfl
    rw [Library.meanBindings, carrier, ok_bind, from_hint, ok_bind, to_hint]
    rfl
  have ordered : q.order = .ok o := by
    have size : Library.size "n" 10 = .ok ⟨10, by decide, by decide⟩ := rfl
    show (Library.size "n" 10 >>= _) = _
    rw [size, ok_bind, bindings]
    rfl
  have native : o.native l = .ok ⟨.boundedMean, [input, output],
      [.reference (.slot (.numeric (.float .single)) (0 : Binary .single)),
        .reference (.slot (.numeric (.float .single)) (1 : Binary .single)), .integer 10]⟩ := by
    have low : (Binary.convert (0 : Binary .double) : Binary .single) = 0 := by decide +kernel
    have high : (Binary.convert (1 : Binary .double) : Binary .single) = 1 := by decide +kernel
    have placed : bounds (.float 0) (.float 1) (.float .single) =
        .ok ((0 : Binary .single), (1 : Binary .single)) := by
      simp [bounds, Value.toNumeric, Value.float?, Value.demand, low, high, bind, Except.bind, pure,
        Except.pure]
    have allowed : l.features.require Signature.boundedMean.features
        Signature.boundedMean.qualifiedName = .ok () := rfl
    have prepared := prepared_mean (i := input) (o := output) (p := .single) allowed
      (m := ⟨10, by decide, by decide⟩) (n := 10) rfl (by decide) (.float 0) (.float 1)
    rw [placed] at prepared
    exact congrArg (· >>= _) prepared
  have exported : Export.lookup (Signature.boundedMean.symbol [input, output]) =
      some (.boundedMean .single) := by
    rw [lookup_boundedMean (Metric.wellFormed _) (Metric.wellFormed _)]
    rfl
  exact ⟨o, _, ordered, native, (instantiation_agrees l q).2 _ _ _ ordered native exported, rfl⟩

end PrivateRelease.Host