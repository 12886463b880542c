import PrivateRelease.Proofs.Host.Preparation

/-!
# Substituting in turn

Two substitutions in turn are one: what the first puts in is substituted by the second, and a name that
the first leaves is left to the second. What is put in is not looked at again by the substitution that
puts it in, and the head of an argument list is never replaced. Well-formed types stay well formed, so
what is made of a shape is printed as a text that is read as it.
-/

namespace PrivateRelease

namespace Bindings

/-- `e` binds every name as it comes out of a substitution by `b` and then one by `c`. -/
structure InTurn (b c e : Bindings) : Prop where
  bound : ∀ {name d}, b.lookup name = some d → e.lookup name = some (d.substitute c)
  free : ∀ {name}, b.lookup name = none → e.lookup name = c.lookup name

def andThen (b c : Bindings) : Bindings := b.map (fun x => (x.1, x.2.substitute c)) ++ c

theorem lookup_map_substitute (b c : Bindings) (name : String) :
    (b.map fun x => (x.1, x.2.substitute c)).lookup name =
      (b.lookup name).map (Descriptor.substitute c) := by
  induction b with
  | nil => rfl
  | cons x b ih =>
    rw [List.map_cons, List.lookup_cons, List.lookup_cons, ih]
    cases name == x.1 <;> rfl

theorem inTurn_andThen (b c : Bindings) : InTurn b c (andThen b c) where
  bound h := by rw [andThen, List.lookup_append, lookup_map_substitute, h]; rfl
  free h := by rw [andThen, List.lookup_append, lookup_map_substitute, h]; rfl

end Bindings

namespace Descriptor

variable {b c e : Bindings}

mutual

theorem substitute_substitute (h : b.InTurn c e) (d : Descriptor) :
    (d.substitute b).substitute c = d.substitute e := by
  match d with
  | .primitive p => simp only [substitute]
  | .tuple items => rw [substitute, substitute, substitute, substituteList_substituteList h items]
  | .generic name [] =>
    rw [substitute, substitute]
    cases bound : b.lookup name with
    | none => rw [Option.getD_none, substitute, h.free bound]
    | some d => rw [Option.getD_some, h.bound bound, Option.getD_some]
  | .generic name (arg :: args) =>
    -- Arguments stay arguments: to the second substitution the head is still no bare name.
    have rest := substituteList_substituteList h (arg :: args)
    simp only [substituteList] at rest
    simp only [substitute, substituteList, rest]

theorem substituteList_substituteList (h : b.InTurn c e) (ds : List Descriptor) :
    substituteList c (substituteList b ds) = substituteList e ds := by
  match ds with
  | [] => rfl
  | d :: ds =>
    rw [substituteList, substituteList, substituteList, substitute_substitute h d,
      substituteList_substituteList h ds]

end

end Descriptor

namespace Host

open Descriptor

theorem templateArgs_wellFormed {b : Bindings}
    (hb : ∀ name e, b.lookup name = some e → e.WellFormed) {shape : String} {ds : List Descriptor}
    (h : templateArgs shape b = .ok ds) : ∀ d ∈ ds, d.WellFormed := by
  unfold templateArgs at h
  split at h
  · next parsed read =>
    cases h
    have clean : ∀ d ∈ parsed, d.WellFormed := by
      obtain ⟨-, rfl⟩ | ⟨clean, -⟩ := parseArgs_eq_ok_iff.mp read
      · simp
      · exact clean
    simpa using fun d hd => (clean d hd).substitute hb
  · cases h

/-- Substitutions in turn come to one substitution, by any bindings that bind what they bind in turn,
and there are such bindings. They keep types well formed, and whatever is made of a shape with bound
types that were read is read from its own text again. -/
theorem substitution_composes (d : Descriptor) (b c : Bindings) :
    (∃ e, b.InTurn c e) ∧
    (∀ e, b.InTurn c e → (d.substitute b).substitute c = d.substitute e) ∧
    (d.WellFormed → (∀ name e, b.lookup name = some e → e.WellFormed) →
      (d.substitute b).WellFormed) ∧
    ((∀ name e, b.lookup name = some e → ∃ text, parse text = .ok e) → ∀ shape,
      (∀ e, template shape b = .ok e → parse e.toText = .ok e) ∧
      ∀ es, templateArgs shape b = .ok es →
        parseArgs (argsText es) = .ok es ∧ ∀ e ∈ es, parse e.toText = .ok e) := by
  refine ⟨⟨_, b.inTurn_andThen c⟩, fun e h => substitute_substitute h d,
    fun hd hb => hd.substitute hb, fun read shape => ?_⟩
  have hb : ∀ name e, b.lookup name = some e → e.WellFormed := fun name e h => by
    obtain ⟨text, parsed⟩ := read name e h
    exact (parse_eq_ok_iff.mp parsed).1
  refine ⟨fun e made => parse_toText (template_wellFormed_of_lookup hb made), fun es made => ?_⟩
  have clean := templateArgs_wellFormed hb made
  exact ⟨parseArgs_argsText clean, fun e he => parse_toText (clean e he)⟩

/-- `U` is put in for `T` and left there, then replaced by the second substitution; `T` and `Vec` with
arguments stay. -/
theorem substitution_composes_heads :
    letI b : Bindings := [("T", .vector (.named "U")), ("U", .float .double)]
    letI c : Bindings := [("U", .pair (.float .single)), ("Vec", .primitive .bool)]
    letI d : Descriptor := .tuple [.named "T", .generic "T" [.named "U", .named "Vec"]]
    (d.substitute b).substitute c =
      .tuple [.vector (.pair (.float .single)), .generic "T" [.float .double, .primitive .bool]] ∧
    (d.substitute b).WellFormed ∧
    template "(T,T<U,Vec>)" b = .ok (d.substitute b) ∧
    parse (d.substitute b).toText = .ok (d.substitute b) := by
  let b : Bindings := [("T", .vector (.named "U")), ("U", .float .double)]
  let c : Bindings := [("U", .pair (.float .single)), ("Vec", .primitive .bool)]
  let d : Descriptor := .tuple [.named "T", .generic "T" [.named "U", .named "Vec"]]
  have named {name : String} (h : IsName name) : (named name).WellFormed := .generic h (by simp)
  have clean : b.WellFormed := by
    simpa [Bindings.WellFormed, b] using
      ⟨wellFormed_vector (named (by decide)), .primitive (.numeric (.float .double))⟩
  have shaped : d.WellFormed := .tuple (by
    simpa using ⟨named (by decide), .generic (by decide)
      (by simpa using ⟨named (by decide), named (by decide)⟩)⟩)
  obtain ⟨-, turns, kept, again⟩ := substitution_composes d b c
  have made : template "(T,T<U,Vec>)" b = .ok (d.substitute b) := template_toText d shaped b
  refine ⟨(turns _ (b.inTurn_andThen c)).trans (by rfl), kept shaped fun _ _ => clean.lookup, made,
    (again (fun _ e h => ⟨e.toText, parse_toText (clean.lookup h)⟩) _).1 _ made⟩

end Host

end PrivateRelease
