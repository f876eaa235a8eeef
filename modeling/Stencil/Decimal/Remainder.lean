import Stencil.Decimal.Binary

set_option autoImplicit false

namespace Stencil.Decimal

-- Both numbers are brought to the lesser exponent; the remainder then is one of natural numbers,
-- and it has the sign of the dividend.
def Binary.remainder (x y : Binary) : Binary :=
  let common := min x.exponent y.exponent
  let dividend := x.significand <<< (x.exponent - common).toNat
  let divisor := y.significand <<< (y.exponent - common).toNat
  ⟨x.negative, dividend % divisor, common⟩

def remainder (x y : Float) : Float :=
  if x.isNaN || y.isNaN || x.isInf || y == 0 then Float.ofBits 0x7FF8000000000000
  else if y.isInf then x
  else ((Binary.ofFloat x).remainder (Binary.ofFloat y)).toFloat

end Stencil.Decimal
