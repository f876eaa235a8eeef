set_option autoImplicit false

namespace Stencil.Decimal

structure Binary where
  negative : Bool
  significand : Nat
  exponent : Int
deriving DecidableEq, Repr

-- A double holds its fraction in 52 bits, its exponent in 11 bits above them, its sign on top.
def fractionLimit : Nat := 0x10000000000000

def fieldLimit : Nat := 0x800

def signBit : Nat := 0x8000000000000000

def Binary.ofFloat (x : Float) : Binary :=
  let bits := x.toBits.toNat
  let field : Nat := bits / fractionLimit % fieldLimit
  let fraction : Nat := bits % fractionLimit
  let negative := bits / signBit == 1
  if field = 0 then ⟨negative, fraction, -1074⟩
  else ⟨negative, fraction + fractionLimit, (field : Int) - 1075⟩

-- The least normal double and the powers of two have a neighbour below at half the distance
-- of the one above.
def Binary.narrowBelow (x : Binary) : Bool := x.significand == fractionLimit && x.exponent > -1074

def Binary.toFloat (x : Binary) : Float :=
  let room := min (52 - (x.significand.log2 : Int)) (x.exponent + 1074)
  let scaled := x.significand <<< room.toNat >>> (-room).toNat
  let field := if scaled < fractionLimit then 0 else (x.exponent - room + 1075).toNat
  let magnitude := field * fractionLimit + scaled % fractionLimit
  Float.ofBits (UInt64.ofNat (if x.negative then magnitude + signBit else magnitude))

def isNegative (x : Float) : Bool := x.toBits.toNat / signBit == 1

end Stencil.Decimal
