import PrivateRelease.Mechanism.Draw
import PrivateRelease.Number.Elementary

/-!
# Noise

Three samplers, each a function of its draws. Counts are held within 128 bits, where the difference
of two of them is exact.
-/

namespace PrivateRelease

namespace Noise

/-- Whether a scale is a positive finite number. -/
def isScale (scale : Binary .double) : Bool := scale.isFinite && Binary.lt 0 scale

def checkScale (scale : Binary .double) : Sampling Unit :=
  if isScale scale then pure () else throw (.badInput (.noiseScale scale))

variable [Elementary]

/-- The Laplace noise of a draw, by the inverse of the distribution function. -/
def laplaceOf (scale : Binary .double) (d : Binary .double) : Binary .double :=
  let u := d - 1 / 2
  let side : Binary .double := if u.isNegative then -1 else 1
  (-scale) * side * Elementary.ln (1 - 2 * u.abs)

def laplace (scale : Binary .double) : Sampling (Binary .double) := do
  checkScale scale
  return laplaceOf scale (← Sampling.draw)

/-- The ratio of a circle's circumference to its diameter. -/
def pi : Binary .double := .ofBits 0x400921fb54442d18

/-- The Gaussian noise of a radius draw, of which the logarithm is taken, and an angle draw. -/
def gaussianOf (scale radius angle : Binary .double) : Binary .double :=
  scale * ((-2 * Elementary.ln radius).sqrt * Elementary.cos (2 * pi * angle))

def gaussian (scale : Binary .double) : Sampling (Binary .double) := do
  checkScale scale
  let radius ← Sampling.draw
  return gaussianOf scale radius (← Sampling.uniform)

def leastWide : Int := -2 ^ 127

def greatestWide : Int := 2 ^ 127 - 1

/-- The integer within 128 bits that is nearest to `n`. -/
def clampWide (n : Int) : Int := max leastWide (min greatestWide n)

/-- The number of failures before the first success, for the draw `d`. -/
def failures (scale d : Binary .double) : Int :=
  Binary.floorWithin leastWide greatestWide (Elementary.ln d / (-1 / scale))

/-- Two-sided geometric noise, as the difference of two one-sided counts. -/
def geometricOf (scale first second : Binary .double) : Int :=
  failures scale first - failures scale second

def geometric (scale : Binary .double) : Sampling Int := do
  checkScale scale
  let first ← Sampling.draw
  return geometricOf scale first (← Sampling.draw)

end Noise

end PrivateRelease
