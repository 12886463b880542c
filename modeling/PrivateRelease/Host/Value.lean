import PrivateRelease.Scalar

/-!
# Host values

What a dynamically typed host passes in and gets back: a value before any scalar type is chosen for
it. Integers are 64 bits wide and floats are doubles.
-/

namespace PrivateRelease.Host

/-- What a host can tell about a value at run time. -/
inductive Marker where
  | bool
  | int
  | float
  | text
  | list
  | tuple
  deriving DecidableEq, Repr

namespace Marker

def all : List Marker := [bool, int, float, text, list, tuple]

def name : Marker → String
  | bool => "Bool"
  | int => "Int"
  | float => "Float"
  | text => "Str"
  | list => "List"
  | tuple => "Tuple"

instance : ToString Marker := ⟨name⟩

def ofName? (s : String) : Option Marker := all.find? fun m => m.name == s

end Marker

inductive Value where
  | bool (b : Bool)
  | int (n : Bounded .i64)
  | float (x : Binary .double)
  | text (s : String)
  | list (items : List Value)
  | tuple (items : List Value)

namespace Value

instance : Inhabited Value := ⟨tuple []⟩

def marker : Value → Marker
  | bool _ => .bool
  | int _ => .int
  | float _ => .float
  | text _ => .text
  | list _ => .list
  | tuple _ => .tuple

/-! ## Reading -/

def bool? : Value → Option Bool
  | bool b => some b
  | _ => none

def int? : Value → Option (Bounded .i64)
  | int n => some n
  | _ => none

/-- A float, or an integer as the nearest double. -/
def float? : Value → Option (Binary .double)
  | float x => some x
  | int n => some (Binary.ofInt n.val)
  | _ => none

def text? : Value → Option String
  | text s => some s
  | _ => none

def list? : Value → Option (List Value)
  | list items => some items
  | _ => none

def tuple? : Value → Option (List Value)
  | tuple items => some items
  | _ => none

/-! ## Text -/

mutual

/-- Lists stand in square brackets and tuples in round ones; strings are quoted. -/
def toText : Value → String
  | bool b => if b then "true" else "false"
  | int n => toString n.val
  | float x => x.toText
  | text s => Text.quoted s
  | list items => "[" ++ String.intercalate ", " (texts items) ++ "]"
  | tuple items => "(" ++ String.intercalate ", " (texts items) ++ ")"

def texts : List Value → List String
  | [] => []
  | v :: vs => v.toText :: texts vs

end

instance : ToString Value := ⟨toText⟩

mutual

/-- As `toText`, with the marker of every value before it. -/
def markedText : Value → String
  | bool b => "Bool(" ++ (if b then "true" else "false") ++ ")"
  | int n => "Int(" ++ toString n.val ++ ")"
  | float x => "Float(" ++ x.toText ++ ")"
  | text s => "Str(" ++ Text.quoted s ++ ")"
  | list items => "List([" ++ String.intercalate ", " (markedTexts items) ++ "])"
  | tuple items => "Tuple([" ++ String.intercalate ", " (markedTexts items) ++ "])"

def markedTexts : List Value → List String
  | [] => []
  | v :: vs => v.markedText :: markedTexts vs

end

end Value

end PrivateRelease.Host
