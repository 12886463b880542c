import PrivateRelease.Error

/-!
# Draws

Randomness is a tape of draws from the unit interval, each a multiple of `2⁻⁵³`. Where zero is of no
use a draw is repeated until it is another number. A sampling computation reads the tape from its
position on, so it is a function of the draws.
-/

namespace PrivateRelease

/-- A draw as it comes, which may be zero. -/
structure Uniform where
  numerator : Nat
  lt_one : numerator < 2 ^ 53

/-- A draw that is repeated as long as it is zero. -/
structure Draw extends Uniform where
  pos : 0 < numerator

/-- The draw as a number, which is exact. -/
def Uniform.toDouble (d : Uniform) : Binary .double :=
  .rounded false (d.numerator * 2 ^ (1074 - 53)) 1

namespace Draw

def half : Draw := ⟨⟨2 ^ 52, by decide⟩, by decide⟩

/-- The draw, with one half in the place of zero. -/
def ofUniform (d : Uniform) : Draw := if h : 0 < d.numerator then ⟨d, h⟩ else half

end Draw

/-- What is drawn at each position, by those who take zero and by those who do not. -/
structure Tape where
  uniform : Nat → Uniform
  draw : Nat → Draw
  position : Nat

/-- Mixes the bits of a word, so that near words have unlike images. -/
def scramble (w : UInt64) : UInt64 :=
  let w := w * 0x9e3779b97f4a7c15
  let w := (w ^^^ (w >>> 30)) * 0xbf58476d1ce4e5b9
  let w := (w ^^^ (w >>> 27)) * 0x94d049bb133111eb
  w ^^^ (w >>> 31)

namespace Tape

/-- A tape that is reproducible from a seed: each draw is the leading bits of a scrambled word. -/
def seeded (seed : Nat) : Tape :=
  let leading (i : Nat) : Uniform := ⟨(scramble (seed + i).toUInt64 >>> 11).toNat % 2 ^ 53,
    Nat.mod_lt _ (by decide)⟩
  ⟨leading, fun i => .ofUniform (leading i), 0⟩

def next (t : Tape) : Draw × Tape := (t.draw t.position, { t with position := t.position + 1 })

end Tape

abbrev Sampling (α : Type) := StateT Tape (Except Error) α

namespace Sampling

/-- The next draw that is not zero. -/
def draw : Sampling (Binary .double) := fun t => .ok (t.next.1.toDouble, t.next.2)

/-- The next draw, zero or not. -/
def uniform : Sampling (Binary .double) := fun t =>
  .ok ((t.uniform t.position).toDouble, t.next.2)

/-- A computation that makes no draw. -/
def ofExcept {α : Type} (r : Except Error α) : Sampling α := fun t => r.map (·, t)

end Sampling

end PrivateRelease
