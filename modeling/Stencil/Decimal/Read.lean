import Stencil.Decimal.Binary

set_option autoImplicit false

namespace Stencil.Decimal

def isDigit (c : Char) : Bool := '0' ≤ c && c ≤ '9'

def digitValue (c : Char) : Nat := c.toNat - 48

def natOfDigits (digits : List Char) : Nat := digits.foldl (fun n c => n * 10 + digitValue c) 0

-- The double nearest to `significand * 10 ^ exponent`, ties to even. The two early answers only
-- keep the powers of ten small: every double other than zero lies between them.
def nearest (significand : Nat) (exponent : Int) : Float :=
  let size := (Nat.toDigits 10 significand).length + exponent
  if significand = 0 || size < -400 then 0
  else if 400 < size then Float.ofBits 0x7FF0000000000000
  else Float.ofScientific significand (exponent < 0) exponent.natAbs

structure Numeral where
  negative : Bool
  whole : List Char
  fraction : Option (List Char)
  exponent : Option (Bool × List Char)
deriving DecidableEq, Repr

def wordLimit : Nat := 0x10000000000000000

def fillWord (word : Nat) : List Char → Nat × List Char
  | [] => (word, [])
  | c :: rest =>
      let next := word * 10 + digitValue c
      if wordLimit ≤ next then (word, c :: rest) else fillWord next rest

def Numeral.parts (n : Numeral) : Nat × Int :=
  let (word, wholeLeft) := fillWord 0 n.whole
  let fraction := n.fraction.getD []
  let (word, fractionLeft) := fillWord word fraction
  (word, (wholeLeft.length : Int) - (fraction.length - fractionLeft.length : Nat))

def greatestExponent : Nat := 2147483647

-- Scales by powers of ten that are doubles themselves, the greatest being 10^308. Nothing beyond
-- the greatest double is read.
def scale (steps : Nat) (x : Float) (exponent : Int) : Option Float :=
  if exponent.natAbs ≤ 308 then
    let power := Float.ofScientific 1 false exponent.natAbs
    if 0 ≤ exponent then
      let product := x * power
      if product.isInf then none else some product
    else some (x / power)
  else if x == 0 then some x
  else if 0 ≤ exponent then none
  else
    match steps with
    | 0 => some 0
    | steps + 1 => scale steps (x / Float.ofScientific 1 false 308) (exponent + 308)

def Numeral.exponentValue (n : Numeral) : Option Int :=
  match n.exponent with
  | none => some 0
  | some (negative, digits) =>
      let size := natOfDigits digits
      if greatestExponent < size then none
      else some (if negative then -(size : Int) else size)

-- The double of a numeral, `none` if it is too large. Four steps bring any word below the least
-- double.
def Numeral.toFloat? (n : Numeral) : Option Float :=
  let (word, power) := n.parts
  let magnitude :=
    match n.exponentValue with
    | some exponent => scale 4 (Float.ofNat word) (power + exponent)
    | none =>
        match n.exponent with
        | some (false, _) => if word = 0 then some 0 else none
        | _ => some 0
  magnitude.map fun x => if n.negative then -x else x

end Stencil.Decimal
