import PrivateRelease.Host.Failure
import PrivateRelease.Text.Characters

/-!
# Features

A set of flags, each of which opens some operations. Kernels with floating-point noise and
combinators without a vetted proof are closed by default.
-/

namespace PrivateRelease.Host

/-- The flags that are on, in order and without repetition. -/
structure Features where
  flags : List String
  deriving DecidableEq

namespace Features

def floatingPoint : String := "floating-point"

def contrib : String := "contrib"

def none : Features := ⟨[]⟩

def insertInto (flag : String) : List String → List String
  | [] => [flag]
  | g :: gs =>
    if flag < g then flag :: g :: gs
    else if flag = g then g :: gs
    else g :: insertInto flag gs

def insert (f : Features) (flag : String) : Features := ⟨insertInto flag f.flags⟩

def enable (f : Features) (flags : List String) : Features := flags.foldl insert f

/-- Every known flag. -/
def all : Features := none.enable [floatingPoint, contrib]

/-- Splits at each occurrence of a character. -/
def splitAt (sep : Char) : List Char → List (List Char)
  | [] => [[]]
  | c :: cs =>
    if c = sep then [] :: splitAt sep cs
    else
      match splitAt sep cs with
      | part :: parts => (c :: part) :: parts
      | [] => [[c]]

def trim (s : List Char) : List Char :=
  ((s.dropWhile Text.isBlank).reverse.dropWhile Text.isBlank).reverse

/-- The flags between the commas of a text, without white space around them. -/
def parse (text : String) : Features :=
  none.enable ((((splitAt ',' text.toList).map trim).filter (· ≠ [])).map String.ofList)

def isEnabled (f : Features) (flag : String) : Bool := f.flags.contains flag

/-- Fails at the first flag that is off. -/
def require (f : Features) (flags : List String) (operation : String) : Except Failure Unit :=
  match flags.find? fun flag => !f.isEnabled flag with
  | some flag => .error (.featureDisabled flag operation)
  | Option.none => .ok ()

end Features

end PrivateRelease.Host
