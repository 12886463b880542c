import PrivateRelease.Host.Entity

/-!
# The library

Makes entities from host values and hints. A type without a hint is inferred from a value, or has a
default. The features are fixed when the library is set up.
-/

namespace PrivateRelease.Host

structure Library where
  features : Features

namespace Library

variable [Elementary] (l : Library)

/-- Calls an operation that returns an entity. -/
def make (r : Role) (s : Signature) (b : Bindings) (args : List Argument) : Action (Entity r) := do
  let returned ← s.call l.features b args
  Entity.ofHandle r (← Action.ofExcept returned.toHandle)

/-- The identity on vectors; the element type has to be hinted. -/
def identity (hints : Hints) : Action (Entity .transformation) := do
  let t ← Action.ofExcept (hints.require "T")
  l.make .transformation .identity [("T", t)] []

def clamp (lower upper : Value) (hints : Hints) : Action (Entity .transformation) := do
  let t ← Action.ofExcept (hints.resolve "T" lower.inferred)
  l.make .transformation .clamp [("T", t)] [.value lower, .value upper]

def boundedSum (lower upper : Value) (hints : Hints) : Action (Entity .transformation) := do
  let t ← Action.ofExcept (hints.resolve "T" lower.inferred)
  l.make .transformation .boundedSum [("T", t)] [.value lower, .value upper]

/-- A number as a host integer. -/
def size (parameter : String) (n : Nat) : Except Failure (Bounded .i64) :=
  match Bounded.ofInt? .i64 n with
  | some n => .ok n
  | none => .error (.unmarshalled (.parameterOverflow parameter n))

/-- The types of a mean: the input metric defaults to the symmetric distance, the output metric to
the absolute sensitivity, whose carrier the bounds have. -/
def meanBindings (lower : Value) (hints : Hints) : Except Failure Bindings := do
  let t ← hints.resolve "T" lower.inferred
  let input ← hints.resolve "MI" (.ok (.named "SymmetricDistance"))
  let output ← hints.resolve "MO" (template "L1Sensitivity<T>" [("T", t)])
  let carrier := match output with
    | .generic _ [carrier] => carrier
    | _ => t
  return [("MO", output), ("MI", input), ("T", carrier)]

/-- The mean of exactly `n` values between the bounds. -/
def boundedMean (lower upper : Value) (n : Nat) (hints : Hints) :
    Action (Entity .transformation) := do
  let n ← Action.ofExcept (size "n" n)
  let b ← Action.ofExcept (meanBindings lower hints)
  l.make .transformation .boundedMean b [.value lower, .value upper, .value (.int n)]

/-- The number of records; their type has to be hinted. -/
def count (hints : Hints) : Action (Entity .transformation) := do
  let t ← Action.ofExcept (hints.require "TIA")
  l.make .transformation .count [("TIA", t)] []

def laplace (scale : Value) (hints : Hints) : Action (Entity .measurement) := do
  let t ← Action.ofExcept (hints.resolve "T" scale.inferred)
  l.make .measurement .laplace [("T", t)] [.value scale]

def gaussian (scale : Value) (hints : Hints) : Action (Entity .measurement) := do
  let t ← Action.ofExcept (hints.resolve "T" scale.inferred)
  l.make .measurement .gaussian [("T", t)] [.value scale]

/-- Two-sided geometric noise on 32-bit integers, unless hinted otherwise. -/
def geometric (scale : Binary .double) (hints : Hints) : Action (Entity .measurement) := do
  let t ← Action.ofExcept (hints.resolve "T" (.ok (.integer .i32)))
  l.make .measurement .geometric [("T", t)] [.value (.float scale)]

end Library

end PrivateRelease.Host
