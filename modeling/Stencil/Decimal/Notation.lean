import Stencil.Decimal.Shortest

set_option autoImplicit false

namespace Stencil.Decimal

def natDigits (n : Nat) : List Char := Nat.toDigits 10 n

def Digits.layout (d : Digits) : List Char × Int :=
  let all := natDigits d.significand
  let kept := (all.reverse.dropWhile (· = '0')).reverse
  (kept, d.exponent + all.length)

def positional (digits : List Char) (point : Int) : List Char × List Char :=
  if point ≤ 0 then (['0'], List.replicate (-point).toNat '0' ++ digits)
  else
    let n := point.toNat
    (digits.take n ++ List.replicate (n - digits.length) '0', digits.drop n)

def signed (negative : Bool) (text : List Char) : List Char := if negative then '-' :: text else text

def scientificPoint (point : Int) : Bool := point < -4 || 16 < point

def exponentText (power : Int) : List Char :=
  'e' :: (if power < 0 then '-' else '+') :: natDigits power.natAbs

def jsonText (x : Float) : List Char :=
  if x == 0 then signed (isNegative x) ['0', '.', '0']
  else
    let (digits, point) := (shortest .toEven x).layout
    let text :=
      if scientificPoint point then
        match digits with
        | [] => exponentText (point - 1)
        | [d] => d :: exponentText (point - 1)
        | d :: rest => d :: '.' :: rest ++ exponentText (point - 1)
      else
        let (whole, fraction) := positional digits point
        whole ++ '.' :: (if fraction.isEmpty then ['0'] else fraction)
    signed (isNegative x) text

def plainText (x : Float) : List Char :=
  if x.isNaN then ['N', 'a', 'N']
  else if x.isInf then signed (isNegative x) ['i', 'n', 'f']
  else if x == 0 then signed (isNegative x) ['0']
  else
    let (digits, point) := (shortest .up x).layout
    let (whole, fraction) := positional digits point
    signed (isNegative x) (whole ++ if fraction.isEmpty then [] else '.' :: fraction)

end Stencil.Decimal
