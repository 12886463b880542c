import PrivateRelease.Descriptor.Basic

/-!
# Reading descriptors

White space may stand between any two tokens. A name is as long as it can be, a primitive type takes
no arguments, and an argument list in angle brackets is not empty. What cannot be read is reported
with its distance in bytes from the start of the text.
-/

namespace PrivateRelease

namespace Descriptor

inductive Fault where
  | noTypeName
  | missing (c : Char)
  | trailing
  | argumentsOfPrimitive (name : String)
  | noArguments
  deriving DecidableEq, Repr

def Fault.message : Fault → String
  | noTypeName => "expected a type name"
  | missing c => "expected '" ++ c.toString ++ "'"
  | trailing => "trailing characters"
  | argumentsOfPrimitive name => s!"primitive {name} takes no arguments"
  | noArguments => "empty argument list"

/-- What is wrong with a text, and where. -/
structure Unreadable where
  fault : Fault
  offset : Nat
  text : String
  deriving DecidableEq, Repr

def Unreadable.message (u : Unreadable) : String :=
  s!"{u.fault.message} at offset {u.offset} in {Text.quoted u.text}"

namespace Reader

/-- A step reads from the front of the characters, or stops at the characters it cannot read. -/
abbrev Step (α : Type) := Except (Fault × List Char) (α × List Char)

def skipBlank (s : List Char) : List Char := s.dropWhile Text.isBlank

/-- What follows the token `c`, if it comes next. -/
def eat (c : Char) (s : List Char) : Option (List Char) :=
  match skipBlank s with
  | [] => none
  | x :: rest => if x = c then some rest else none

def name (s : List Char) : Step String :=
  let s := skipBlank s
  match s.takeWhile isNameChar with
  | [] => .error (.noTypeName, s)
  | cs => .ok (String.ofList cs, s.dropWhile isNameChar)

mutual

/-- One descriptor. The first argument bounds the depth of calls; see `enough`. -/
def descriptor : Nat → List Char → Step Descriptor
  | 0, s => .error (.noTypeName, s)
  | n + 1, s =>
    match eat '(' s with
    | some rest =>
      match list n ')' rest with
      | .ok (items, rest) => .ok (.tuple items, rest)
      | .error e => .error e
    | none =>
      match name s with
      | .error e => .error e
      | .ok (word, rest) =>
        match Primitive.ofName? word with
        | some p =>
          match eat '<' rest with
          | some _ => .error (.argumentsOfPrimitive word, skipBlank rest)
          | none => .ok (.primitive p, rest)
        | none =>
          match eat '<' rest with
          | none => .ok (.generic word [], rest)
          | some rest =>
            match list n '>' rest with
            | .error e => .error e
            | .ok ([], rest) => .error (.noArguments, rest)
            | .ok (arg :: args, rest) => .ok (.generic word (arg :: args), rest)

/-- Descriptors with commas between them, up to and including `close`. -/
def list : Nat → Char → List Char → Step (List Descriptor)
  | 0, _, s => .error (.noTypeName, s)
  | n + 1, close, s =>
    match eat close s with
    | some rest => .ok ([], rest)
    | none => items n close s

/-- As `list`, for at least one descriptor. -/
def items : Nat → Char → List Char → Step (List Descriptor)
  | 0, _, s => .error (.noTypeName, s)
  | n + 1, close, s =>
    match descriptor n s with
    | .error e => .error e
    | .ok (item, rest) =>
      match eat ',' rest with
      | some rest =>
        match items n close rest with
        | .error e => .error e
        | .ok (more, rest) => .ok (item :: more, rest)
      | none =>
        match eat close rest with
        | some rest => .ok ([item], rest)
        | none => .error (.missing close, skipBlank rest)

end

/-- Between two characters read there are at most three calls. -/
def enough (s : List Char) : Nat := 3 * s.length + 3

/-- Nothing but white space may be left. -/
def finish {α : Type} : Step α → Except (Fault × List Char) α
  | .error e => .error e
  | .ok (a, rest) =>
    match skipBlank rest with
    | [] => .ok a
    | c :: rest => .error (.trailing, c :: rest)

/-- The optional list of type arguments. -/
def args (s : List Char) : Step (List Descriptor) :=
  match skipBlank s with
  | [] => .ok ([], [])
  | c :: rest =>
    if c = '<' then list (enough rest) '>' rest else .error (.missing '<', c :: rest)

def utf8Length (s : List Char) : Nat := (String.ofList s).utf8ByteSize

/-- Turns the characters left over into an offset. -/
def located {α : Type} (text : String) : Except (Fault × List Char) α → Except Unreadable α
  | .ok a => .ok a
  | .error (fault, rest) =>
    .error ⟨fault, utf8Length text.toList - utf8Length rest, text⟩

end Reader

/-- The descriptor that a text spells. -/
def parse (text : String) : Except Unreadable Descriptor :=
  let s := text.toList
  Reader.located text (Reader.finish (Reader.descriptor (Reader.enough s) s))

/-- The type arguments that a text spells; a blank text spells none. -/
def parseArgs (text : String) : Except Unreadable (List Descriptor) :=
  Reader.located text (Reader.finish (Reader.args text.toList))

end Descriptor

end PrivateRelease
