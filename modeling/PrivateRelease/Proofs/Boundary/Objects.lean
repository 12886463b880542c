import PrivateRelease.Boundary.Argument
import PrivateRelease.Boundary.Object
import PrivateRelease.Proofs.Mechanism.Functions

/-!
# Objects from memory

`layout` is the memory a caller has to hand over to have a given value made: the native side makes
that very value from it, whatever the nesting of tuples. The list of types, numbers in slots and words
arrive as they were meant too.
-/

namespace PrivateRelease.Boundary

namespace Memory

theorem itemsOf_some {α : Type} {m : Memory} {xs : List α} (hn : m.isNull = false)
    (h : xs.length = m.length) (name : String) : m.itemsOf name (some xs) = .ok xs := by
  unfold itemsOf
  by_cases h0 : m.length = 0
  · rw [if_pos h0, List.eq_nil_of_length_eq_zero (h.trans h0)]
  · rw [if_neg h0]
    cases m with
    | null n => cases hn
    | _ => rfl

theorem bytes?_ofText (s : String) : (ofText s).bytes? = some s.toUTF8.data.toList := bytes?_bytes _

theorem fromUTF8?_toUTF8 (s : String) :
    String.fromUTF8? ⟨s.toUTF8.data.toList.toArray⟩ = some s := by
  rw [Array.toArray_toList]
  exact dif_pos s.isValidUTF8

theorem toText_ofText (s : String) : (ofText s).toText = .ok s := by
  unfold toText
  rw [bytes?_ofText, itemsOf_some rfl rfl, ok_bind, fromUTF8?_toUTF8]

theorem toBools_ofBools (bs : List Bool) :
    (bs.map fun b => if b then (1 : UInt8) else 0).map (fun b => (b != 0 : Bool)) = bs := by
  induction bs with
  | nil => rfl
  | cons b bs ih => cases b <;> simp [ih]

theorem toScalar_ofScalar (p : Primitive) (x : p.Carrier) : (ofScalar p x).toScalar p = .ok x := by
  cases p with
  | bool => cases x <;> rfl
  | numeric q =>
    show (numbers q [x]).scalarOf ((numbers q [x]).numbers? q) = .ok x
    rw [numbers?_numbers]
    rfl
  | string => exact toText_ofText x

theorem toVector_ofVector (p : Primitive) (xs : List p.Carrier) :
    (ofVector p xs).toVector p = .ok xs := by
  cases p with
  | bool =>
    show (fun bs => bs.map fun b => (b != 0 : Bool)) <$>
      (ofBools xs).itemsOf "slice" (ofBools xs).bytes? = .ok xs
    rw [ofBools, bytes?_bytes, itemsOf_some rfl rfl]
    exact congrArg Except.ok (toBools_ofBools xs)
  | numeric q =>
    show (numbers q xs).itemsOf "slice" ((numbers q xs).numbers? q) = .ok xs
    rw [numbers?_numbers, itemsOf_some rfl rfl]
  | string =>
    show (slices (xs.map ofText)).itemsOf "slice" (some (xs.map ofText)) >>= (·.mapM toText) = .ok xs
    rw [itemsOf_some rfl rfl]
    exact mapM_map_eq_ok toText_ofText xs

mutual

/-- The memory of the caller that a value is made from. -/
def layout : Value → Memory
  | .scalar p x => ofScalar p x
  | .vector p xs => ofVector p xs
  | .tuple items => references (layouts items)
  | .curve _ => null 0

def layouts : List Value → List (Option Reference)
  | [] => []
  | v :: vs => some (.slice (layout v)) :: layouts vs

end

theorem length_layouts (vs : List Value) : (layouts vs).length = vs.length := by
  induction vs with
  | nil => rfl
  | cons v vs ih => rw [layouts, List.length_cons, ih, List.length_cons]

theorem toValues_layouts {vs : List Value} (h : ∀ v ∈ vs, (layout v).toValue v.type = .ok v) :
    toValues (Value.types vs) (layouts vs) = .ok vs := by
  induction vs with
  | nil => rfl
  | cons v vs ih =>
    rw [Value.types, layouts, toValues]
    simp only [h v List.mem_cons_self, ih fun w hw => h w (List.mem_cons_of_mem v hw)]
    rfl

/-- From the layout of a value that very value is made. -/
theorem toValue_layout {v : Value} (h : v.IsPlain) : (layout v).toValue v.type = .ok v := by
  induction h with
  | scalar p x =>
    rw [Value.type, toValue, layout, toScalar_ofScalar]
    rfl
  | vector p xs =>
    rw [Value.type, Descriptor.vector, toValue, layout]
    simp only [Descriptor.element?, if_true, toVector_ofVector]
    rfl
  | tuple h ih =>
    rename_i items
    have length : (references (layouts items)).length = (Value.types items).length := by
      rw [Value.types_eq_map, List.length_map, ← length_layouts]
      rfl
    rw [Value.type, toValue, layout, if_neg (by simp [length])]
    have members : (references (layouts items)).itemsOf "slice" (some (layouts items)) =
        .ok (layouts items) := itemsOf_some rfl rfl _
    simp only [references?, members]
    show (toValues (Value.types items) (layouts items) >>= fun vs => pure (Value.tuple vs)) =
      .ok (.tuple items)
    rw [toValues_layouts ih]
    rfl

end Memory

/-! ## Arguments on arrival -/

theorem Blob.types_argsText {ds : List Descriptor} (h : ∀ d ∈ ds, d.WellFormed) :
    (Blob.text (Descriptor.argsText ds)).types ds.length = .ok ds := by
  have parsed := Descriptor.parseArgs_argsText h
  simp only [types, bind, Except.bind, parsed]
  simp [pure, Except.pure]

theorem Blob.expect_argsText {ds : List Descriptor} (h : ∀ d ∈ ds, d.WellFormed) :
    (Blob.text (Descriptor.argsText ds)).expect ds = .ok () := by
  unfold expect
  rw [types_argsText h]
  simp [bind, Except.bind, pure, Except.pure]

theorem Payload.toSlot_slot {p : Primitive} (hp : p ≠ .string) (x : p.Carrier) (what : String) :
    (Payload.reference (.slot p x)).toSlot p what = .ok x := by
  have read := Primitive.ofBytes?_toBytes hp x
  unfold toSlot
  simp only [refer, reference?, Reference.content, bind, Except.bind, read]

theorem Payload.toSlot_number {q : Numeric} (x : q.Carrier) (what : String) :
    (Payload.reference (.slot (.numeric q) x)).toSlot (.numeric q) what = .ok x :=
  toSlot_slot (p := .numeric q) nofun x what

theorem Payload.toUnsigned_integer {n : Nat} (h : n < 2 ^ 64) :
    (Payload.integer n).toUnsigned = n := by
  show (UInt64.ofNat ((n : Int) % 2 ^ 64).toNat).toNat = n
  have small : ((n : Int) % 2 ^ 64).toNat = n := by omega
  rw [small, UInt64.toNat_ofNat_of_lt' h]

theorem Payload.toSigned_integer (n : Bounded .i64) : (Payload.integer n.val).toSigned = n := by
  have least := n.least_le
  have greatest := n.le_greatest
  simp only [IntegerType.least, IntegerType.greatest] at least greatest
  have small : (n.val % 2 ^ 64).toNat < 2 ^ 64 := by omega
  have word : (Payload.integer n.val).bits.toInt64.toInt = n.val := by
    show (UInt64.ofNat (n.val % 2 ^ 64).toNat).toBitVec.toInt = n.val
    rw [BitVec.toInt_eq_toNat_cond, UInt64.toNat_toBitVec, UInt64.toNat_ofNat_of_lt' small]
    split <;> omega
  rw [toSigned, word, Bounded.clamp_val]

theorem Payload.toDouble_double (x : Binary .double) : (Payload.double x).toDouble = x := by
  have small : x.toBits < 2 ^ 64 := x.toBits_lt
  show Binary.ofBits (UInt64.ofNat x.toBits).toNat = x
  rw [UInt64.toNat_ofNat_of_lt' small, Binary.ofBits_toBits]

end PrivateRelease.Boundary
