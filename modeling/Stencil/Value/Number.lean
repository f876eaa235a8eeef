import Stencil.Decimal.Notation
import Stencil.Decimal.Read

set_option autoImplicit false

namespace Stencil

def FitsWord (n : Int) : Prop := -0x8000000000000000 ≤ n ∧ n < 0x10000000000000000

instance (n : Int) : Decidable (FitsWord n) := inferInstanceAs (Decidable (_ ∧ _))

inductive Number where
  | int (n : Int) (fits : FitsWord n)
  | float (x : Float) (finite : x.isFinite = true)

namespace Number

def ofInt? (n : Int) : Option Number := if fits : FitsWord n then some (.int n fits) else none

def ofFloat? (x : Float) : Option Number :=
  if finite : x.isFinite = true then some (.float x finite) else none

def ofNat (n : Nat) : Number :=
  .int ((n % Decimal.wordLimit : Nat) : Int) (by unfold FitsWord Decimal.wordLimit; omega)

instance (n : Nat) : OfNat Number n := ⟨ofNat n⟩

def toFloat : Number → Float
  | .int n _ => Float.ofInt n
  | .float x _ => x

-- An integer and a double are never the same number; doubles are compared by value.
def same : Number → Number → Bool
  | .int m _, .int n _ => m == n
  | .float x _, .float y _ => x == y
  | _, _ => false

def text : Number → List Char
  | .int n _ => Decimal.signed (n < 0) (Decimal.natDigits n.natAbs)
  | .float x _ => Decimal.jsonText x

-- A numeral without fraction and exponent is an integer where one fits; `-0` is a double.
def ofNumeral? (numeral : Decimal.Numeral) : Option Number :=
  let size : Int := Decimal.natOfDigits numeral.whole
  let plain := numeral.fraction.isNone && numeral.exponent.isNone
  let integer := if plain && !(numeral.negative && size == 0)
    then ofInt? (if numeral.negative then -size else size) else none
  match integer with
  | some n => some n
  | none => numeral.toFloat? >>= ofFloat?

end Number

end Stencil
