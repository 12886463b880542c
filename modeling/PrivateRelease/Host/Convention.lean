/-!
# Calling conventions

How the arguments of a native call are passed, what it returns, and what the host can own.
-/

namespace PrivateRelease.Host

/-- How an argument crosses the boundary. -/
inductive Passing where
  /-- A scalar in the payload word. -/
  | byValue
  /-- A reference to a scalar at a fixed place. -/
  | byReference
  /-- A native object made from a host value. -/
  | object
  /-- Something that the host owns already. -/
  | handle
  /-- A run of measurements that the host owns. -/
  | handles
  deriving DecidableEq, Repr

namespace Passing

def name : Passing → String
  | byValue => "ByValue"
  | byReference => "ByRef"
  | object => "Object"
  | handle => "Handle"
  | handles => "HandleList"

def all : List Passing := [byValue, byReference, object, handle, handles]

def ofName? (s : String) : Option Passing := all.find? fun p => p.name == s

instance : ToString Passing := ⟨name⟩

end Passing

/-- What a successful call returns. -/
inductive Outcome where
  | transformation
  | measurement
  /-- An object that stays native. -/
  | object
  | view
  /-- An object that is read into a host value and given back. -/
  | value
  | bool
  | float
  | text
  | unit
  deriving DecidableEq, Repr

namespace Outcome

def name : Outcome → String
  | transformation => "Transformation"
  | measurement => "Measurement"
  | object => "Object"
  | view => "View"
  | value => "Value"
  | bool => "Bool"
  | float => "Float"
  | text => "Str"
  | unit => "Unit"

def all : List Outcome :=
  [transformation, measurement, object, view, value, bool, float, text, unit]

def ofName? (s : String) : Option Outcome := all.find? fun o => o.name == s

end Outcome

/-- The kinds of native things that the host can own. -/
inductive Kind where
  | transformation
  | measurement
  | object
  | view
  deriving DecidableEq, Repr

namespace Kind

def name : Kind → String
  | transformation => "Transformation"
  | measurement => "Measurement"
  | object => "Object"
  | view => "View"

instance : ToString Kind := ⟨name⟩

/-- The entry point that takes a thing of this kind back. -/
def freeSymbol : Kind → String
  | transformation => "core__transformation_free"
  | measurement => "core__measurement_free"
  | object => "data__object_free"
  | view => "data__slice_free"

end Kind

end PrivateRelease.Host
