import PrivateRelease.Scalar
import PrivateRelease.Text.Characters

/-!
# Type descriptors

A descriptor names a type: a primitive one, a tuple, or a name with arguments. A name without
arguments also serves as a type parameter. Descriptors are printed without spaces.
-/

namespace PrivateRelease

inductive Descriptor where
  | primitive (p : Primitive)
  | tuple (items : List Descriptor)
  | generic (name : String) (args : List Descriptor)

namespace Descriptor

mutual

def decEq : (a b : Descriptor) → Decidable (a = b)
  | primitive p, primitive q =>
    if h : p = q then isTrue (by rw [h]) else isFalse (by simpa using h)
  | tuple xs, tuple ys =>
    match decEqList xs ys with
    | isTrue h => isTrue (by rw [h])
    | isFalse h => isFalse (by simpa using h)
  | generic n xs, generic m ys =>
    if hn : n = m then
      match decEqList xs ys with
      | isTrue h => isTrue (by rw [hn, h])
      | isFalse h => isFalse (by simp [h])
    else isFalse (by simp [hn])
  | primitive _, tuple _ => isFalse nofun
  | primitive _, generic _ _ => isFalse nofun
  | tuple _, primitive _ => isFalse nofun
  | tuple _, generic _ _ => isFalse nofun
  | generic _ _, primitive _ => isFalse nofun
  | generic _ _, tuple _ => isFalse nofun

def decEqList : (xs ys : List Descriptor) → Decidable (xs = ys)
  | [], [] => isTrue rfl
  | [], _ :: _ => isFalse nofun
  | _ :: _, [] => isFalse nofun
  | x :: xs, y :: ys =>
    match decEq x y with
    | isTrue h =>
      match decEqList xs ys with
      | isTrue hs => isTrue (by rw [h, hs])
      | isFalse hs => isFalse (by simp [hs])
    | isFalse h => isFalse (by simp [h])

end

instance : DecidableEq Descriptor := decEq

instance : Inhabited Descriptor := ⟨tuple []⟩

/-- A bare name. -/
def named (name : String) : Descriptor := generic name []

def numeric (q : Numeric) : Descriptor := primitive (.numeric q)

def float (p : Precision) : Descriptor := numeric (.float p)

def integer (k : IntegerType) : Descriptor := numeric (.integer k)

/-- Vectors of `element`. -/
def vector (element : Descriptor) : Descriptor := generic "Vec" [element]

def pair (a : Descriptor) : Descriptor := tuple [a, a]

def isPrimitive : Descriptor → Bool
  | primitive _ => true
  | _ => false

def numeric? : Descriptor → Option Numeric
  | primitive (.numeric q) => some q
  | _ => none

def isFloat : Descriptor → Bool
  | primitive (.numeric (.float _)) => true
  | _ => false

def isInteger : Descriptor → Bool
  | primitive (.numeric (.integer _)) => true
  | _ => false

def isNumeric (d : Descriptor) : Bool := d.numeric?.isSome

/-- The element type of a vector type. -/
def element? : Descriptor → Option Descriptor
  | generic name [element] => if name = "Vec" then some element else none
  | _ => none

/-- The name and arguments of a descriptor that has a name. -/
def generic? : Descriptor → Option (String × List Descriptor)
  | generic name args => some (name, args)
  | _ => none

mutual

def chars : Descriptor → List Char
  | primitive p => p.name.toList
  | tuple items => '(' :: listChars items ++ [')']
  | generic name [] => name.toList
  | generic name (arg :: args) => name.toList ++ '<' :: listChars (arg :: args) ++ ['>']

/-- The items with commas between them. -/
def listChars : List Descriptor → List Char
  | [] => []
  | [item] => chars item
  | item :: next :: items => chars item ++ ',' :: listChars (next :: items)

end

def toText (d : Descriptor) : String := String.ofList d.chars

instance : ToString Descriptor := ⟨toText⟩

/-- A list of type arguments in angle brackets; nothing for the empty list. -/
def argsText : List Descriptor → String
  | [] => ""
  | arg :: args => String.ofList ('<' :: listChars (arg :: args) ++ ['>'])

/-! ## Symbols -/

def symbolSeparator : String := "__"

/-- The name under which an operation is exported for the given types. -/
def symbol (module operation : String) (types : List Descriptor) : String :=
  types.foldl (fun s d => s ++ symbolSeparator ++ d.toText)
    (module ++ symbolSeparator ++ operation)

/-! ## Names -/

def isNameChar (c : Char) : Bool := Text.isAlphanumeric c || c = '_' || c = ':'

/-- A non-empty name of name characters that no primitive type has. -/
def IsName (s : String) : Prop :=
  s ≠ "" ∧ (∀ c ∈ s.toList, isNameChar c) ∧ Primitive.ofName? s = none

/-- Every name in the descriptor can be read back. -/
inductive WellFormed : Descriptor → Prop
  | primitive (p : Primitive) : WellFormed (.primitive p)
  | tuple {items : List Descriptor} (h : ∀ d ∈ items, WellFormed d) : WellFormed (.tuple items)
  | generic {name : String} {args : List Descriptor} (hn : IsName name)
      (h : ∀ d ∈ args, WellFormed d) : WellFormed (.generic name args)

end Descriptor

end PrivateRelease
