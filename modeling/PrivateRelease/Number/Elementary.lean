import PrivateRelease.Number.Exponential
import PrivateRelease.Number.Interchange

/-!
# Elementary functions

No rounding rule settles the last bit of the logarithm and its kin, so what uses them takes them as a
parameter. `Elementary.machine` has the processor's logarithm and cosine.
-/

namespace PrivateRelease

class Elementary where
  ln : Binary .double → Binary .double
  /-- `exp x - 1`, accurate near zero. -/
  expm1 : Binary .double → Binary .double
  /-- `ln (1 + x)`, accurate near zero. -/
  ln1p : Binary .double → Binary .double
  cos : Binary .double → Binary .double

namespace Elementary

def toMachine (x : Binary .double) : Float := Float.ofBits x.toBits.toUInt64

def ofMachine (x : Float) : Binary .double := .ofBits x.toBits.toNat

@[reducible] def machine : Elementary where
  ln x := ofMachine (toMachine x).log
  expm1 := Binary.expm1
  ln1p := Binary.ln1p
  cos x := ofMachine (toMachine x).cos

end Elementary

end PrivateRelease
