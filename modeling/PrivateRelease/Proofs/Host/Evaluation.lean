import PrivateRelease.Proofs.Host.Conversion

/-!
# Evaluating host actions

What actions of the host come to on a tape, clean-up included: calls come to what their entry points
do, making an object of a host value to the conversion of the value, and reading an object to the
conversion back.
-/

namespace PrivateRelease.Host

open Boundary

/-! ## Clean-up -/

/-- Clean-up that draws nothing. -/
def KeepsTape (cleanUp : StateM Ledger Unit) : Prop := ∀ l, (cleanUp l).2.tape = l.tape

theorem keepsTape_drop [Elementary] (h : Handle) : KeepsTape h.drop := fun l => by
  rw [Handle.drop_eq]
  rfl

theorem keepsTape_dropAll [Elementary] (hs : List Handle) : KeepsTape (Handle.dropAll hs) :=
  fun l => by
    rw [Handle.dropAll_eq]
    rfl

section Actions

variable {α : Type} {a : Action α} {t t' : Tape} {r : Except Failure α} {cleanUp : StateM Ledger Unit}

theorem evaluates_ofExcept (r : Except Failure α) (t : Tape) :
    Evaluates (Action.ofExcept r) t r t := fun _ hl => ⟨rfl, hl⟩

theorem evaluates_ok {x : α} (h : r = .ok x) (t : Tape) :
    Evaluates (Action.ofExcept r) t (.ok x) t := h ▸ evaluates_ofExcept r t

theorem evaluates_error {e : Failure} (h : r = .error e) (t : Tape) :
    Evaluates (Action.ofExcept r) t (.error e) t := h ▸ evaluates_ofExcept r t

theorem evaluates_andAlways (h : Evaluates a t r t') (hc : KeepsTape cleanUp) :
    Evaluates (a.andAlways cleanUp) t r t' := by
  intro l hl
  obtain ⟨hr, ht⟩ := h l hl
  exact ⟨hr, (hc _).trans ht⟩

theorem evaluates_orElseRun (h : Evaluates a t r t') (hc : KeepsTape cleanUp) :
    Evaluates (a.orElseRun cleanUp) t r t' := by
  intro l hl
  obtain ⟨hr, ht⟩ := h l hl
  unfold Action.orElseRun
  generalize a l = out at hr ht
  rcases out with ⟨e | x, l'⟩
  · exact ⟨hr, (hc _).trans ht⟩
  · exact ⟨hr, ht⟩

end Actions

variable [Elementary]

/-! ## Calls -/

/-- A call comes to what the body of its entry point does. -/
theorem evaluates_perform {symbol blob : String} {args : List Payload} {entry : Entry}
    (h : Export.lookup symbol = some entry) (hb : Text.NulFree blob) {t t' : Tape}
    {r : Except CallError Payload}
    (body : Evaluates (entry.body (.text blob) (.ofList args)) t r t') :
    Evaluates (perform symbol blob args) t (r.mapError .ofCall) t' := by
  intro l hl
  obtain ⟨hr, ht⟩ := body l hl
  have hb : blob.toList.contains '\x00' = false := by simpa [Text.NulFree] using hb
  rw [perform_of_lookup h hb]
  generalize entry.body (.text blob) (.ofList args) l = out at hr ht
  rcases out with ⟨e | p, l'⟩
  · exact ⟨by rw [← hr]; rfl, ht⟩
  · exact ⟨by rw [← hr]; rfl, ht⟩

theorem evaluates_takeText (s : String) (t : Tape) :
    Evaluates (takeText (.reference (.text s))) t (.ok s) t := by
  intro l hl
  rw [takeText_text]
  exact ⟨rfl, hl⟩

/-- The handle of an object that owns nothing else. -/
def Handle.ofObject (o : PrivateRelease.Value) : Handle := ⟨.object o, []⟩

/-- A host value is made into the object it stands for. -/
theorem evaluates_makeObject {d : Descriptor} (hd : d.WellFormed) (v : Value) (t : Tape) :
    Evaluates (Frame.makeObject v d) t (Handle.ofObject <$> v.toNative d) t := by
  unfold Frame.makeObject
  rw [Value.toMemory_eq]
  cases ho : v.toNative d with
  | error e => exact (evaluates_ofExcept _ t).bind_error
  | ok o =>
    obtain ⟨rfl, hp⟩ := Value.toNative_eq_ok ho
    have types : ∀ e ∈ [o.type], e.WellFormed := by simpa using hd
    have body : Evaluates (Entry.sliceAsObject.body (.text (Descriptor.argsText [o.type]))
        (.ofList [.reference (.slice (Memory.layout o))])) t (.ok (.reference (.object o))) t := by
      refine (Call.evaluates_ok (Blob.types_argsText types) t).bind_ok ?_
      refine (Call.evaluates_ok rfl t).bind_ok ?_
      refine (Call.evaluates_ok (Memory.toValue_layout hp) t).bind_ok ?_
      exact Call.evaluates_give _ t
    refine (evaluates_ofExcept _ t).bind_ok ?_
    refine (evaluates_perform Export.lookup_sliceAsObject (Descriptor.nulFree_argsText types)
      body).bind_ok ?_
    exact evaluates_ofExcept _ t

/-! ## Reading objects -/

theorem evaluates_objectAsSlice {v : PrivateRelease.Value} {m : Memory} (h : Memory.ofValue v = .ok m)
    (t : Tape) : Evaluates (perform "data__object_as_slice" "" [.reference (.object v)]) t
      (.ok (.reference (.view m))) t := by
  have body : Evaluates (Entry.objectAsSlice.body (.text "") (.ofList [.reference (.object v)])) t
      (.ok (.reference (.view m))) t := by
    refine (Call.evaluates_ok rfl t).bind_ok ?_
    refine (Call.evaluates_core_ok h t).bind_ok ?_
    exact Call.evaluates_give _ t
  exact evaluates_perform Export.lookup_objectAsSlice (by decide) body

theorem evaluates_viewing {α : Type} {v : PrivateRelease.Value} {m : Memory}
    (h : Memory.ofValue v = .ok m) {k : Memory → Action α} {t : Tape} {r : Except Failure α}
    (hk : Evaluates (k m) t r t) : Evaluates (viewing (.reference (.object v)) k) t r t := by
  refine (evaluates_objectAsSlice h t).bind_ok ?_
  refine (evaluates_ok (x := (⟨.view m, []⟩ : Handle)) rfl t).bind_ok ?_
  exact evaluates_andAlways hk (keepsTape_drop _)

theorem evaluates_viewing_curve {α : Type} (c : PrivateRelease.Curve) (k : Memory → Action α)
    (t : Tape) : Evaluates (viewing (.reference (.object (.curve c))) k) t
      (.error (.ofCore (.badCast .curveView))) t := by
  have clean : Error.WellFormed (.badCast .curveView) :=
    show Text.NulFree _ by decide
  have body : Evaluates (Entry.objectAsSlice.body (.text "")
      (.ofList [.reference (.object (.curve c))])) t (.error (.failed (.badCast .curveView))) t := by
    refine (Call.evaluates_ok rfl t).bind_ok ?_
    exact (Call.evaluates_core_error rfl t).bind_error
  rw [← Failure.ofCall_failed clean]
  exact (evaluates_perform Export.lookup_objectAsSlice (by decide) body).bind_error

mutual

theorem evaluates_readObject (v : PrivateRelease.Value) (t : Tape) :
    Evaluates (readObject v.type (.reference (.object v))) t (Value.ofNative v) t := by
  match v with
  | .scalar p x =>
    rw [PrivateRelease.Value.type, readObject, Value.ofNative, ← Value.ofMemory_ofScalar]
    exact evaluates_viewing rfl (evaluates_ofExcept _ t)
  | .vector p xs =>
    rw [Value.ofNative]
    exact evaluates_viewing rfl (Value.ofMemory_ofVector p xs ▸ evaluates_ofExcept _ t)
  | .tuple items =>
    rw [PrivateRelease.Value.type, readObject, Value.ofNative]
    have length : (PrivateRelease.Value.types items).length = items.length := by
      rw [PrivateRelease.Value.types_eq_map, List.length_map]
    refine evaluates_viewing rfl ?_
    refine (evaluates_ok (x := items.map fun v => some (Reference.object v)) rfl t).bind_ok ?_
    rw [if_neg (by simp [length])]
    exact (evaluates_readObjects items t).bind fun vs _ => .pure _ t
  | .curve c =>
    exact evaluates_viewing_curve c _ t

theorem evaluates_readObjects (vs : List PrivateRelease.Value) (t : Tape) :
    Evaluates (readObjects (PrivateRelease.Value.types vs) (vs.map fun v => some (.object v))) t
      (Value.ofNatives vs) t := by
  match vs with
  | [] => exact .pure _ t
  | v :: vs =>
    rw [PrivateRelease.Value.types, List.map_cons, readObjects, Value.ofNatives]
    refine (evaluates_readObject v t).bind fun w _ => ?_
    exact (evaluates_readObjects vs t).bind fun ws _ => .pure _ t

end

/-- An object is read as what it stands for. -/
theorem evaluates_read {o : PrivateRelease.Value} (h : o.type.WellFormed) (t : Tape) :
    Evaluates (Handle.ofObject o).read t (Value.ofNative o) t := by
  have body : Evaluates (Entry.objectType.body (.text "") (.ofList [.reference (.object o)])) t
      (.ok (.reference (.text o.type.toText))) t := by
    refine (Call.evaluates_ok rfl t).bind_ok ?_
    exact Call.evaluates_giveText h.nulFree t
  have named := evaluates_perform Export.lookup_objectType (by decide) body
  refine named.bind_ok ((evaluates_takeText _ t).bind_ok ?_)
  rw [Descriptor.parse_toText h]
  exact evaluates_readObject o t

end PrivateRelease.Host
