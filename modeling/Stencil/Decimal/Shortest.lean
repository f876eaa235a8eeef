import Stencil.Decimal.Binary

set_option autoImplicit false

namespace Stencil.Decimal

structure Digits where
  significand : Nat
  exponent : Int
deriving DecidableEq, Repr

inductive Tie where
  | toEven | up
deriving DecidableEq, Repr

def Tie.pick (tie : Tie) (low : Nat) : Nat :=
  match tie with
  | .toEven => low + low % 2
  | .up => low + 1

structure Interval where
  below : Nat
  value : Nat
  above : Nat
  denominator : Nat
  inclusive : Bool

def twoTo (n : Nat) : Nat := 1 <<< n

def tenTo (n : Nat) : Nat := Nat.pow 10 n

def Interval.ofBinary (x : Binary) : Interval :=
  let q := x.exponent - 2
  let up := twoTo q.toNat
  { below := (4 * x.significand - if x.narrowBelow then 1 else 2) * up
    value := 4 * x.significand * up
    above := (4 * x.significand + 2) * up
    denominator := twoTo (-q).toNat
    inclusive := x.significand % 2 == 0 }

def Interval.contains (i : Interval) (numerator denominator : Nat) : Bool :=
  let point := numerator * i.denominator
  if i.inclusive then i.below * denominator ≤ point && point ≤ i.above * denominator
  else i.below * denominator < point && point < i.above * denominator

def Interval.hit? (i : Interval) (tie : Tie) (grid : Int) : Option Nat :=
  let coarse := tenTo grid.toNat
  let fine := tenTo (-grid).toNat
  let unit := i.denominator * coarse
  let low := i.value * fine / unit
  let fits (n : Nat) : Bool := n != 0 && i.contains (n * coarse) fine
  match fits low, fits (low + 1) with
  | false, false => none
  | true, false => some low
  | false, true => some (low + 1)
  | true, true =>
      let twice := 2 * (i.value * fine)
      let middle := (2 * low + 1) * unit
      if twice < middle then some low
      else if middle < twice then some (low + 1)
      else some (tie.pick low)

-- Where a decimal on this grid lies among the reals that round to the double, so does a neighbour of the value on the
-- grid, and only the neighbours are tried.
def Interval.search (i : Interval) (tie : Tie) (left : Nat) (grid : Int) : Digits :=
  match i.hit? tie grid with
  | some n => ⟨n, grid⟩
  | none =>
      match left with
      | 0 => ⟨i.value * tenTo (-grid).toNat / (i.denominator * tenTo grid.toNat), grid⟩
      | left + 1 => i.search tie left (grid - 1)

def Interval.reaches (i : Interval) (power : Int) : Bool :=
  i.denominator * tenTo power.toNat ≤ i.value * tenTo (-power).toNat

-- The power of ten of the first digit, from the power of two by `log₁₀ 2`, then corrected.
def Interval.magnitude (i : Interval) : Int :=
  let estimate := ((i.value.log2 : Int) - i.denominator.log2) * 30103 / 100000
  if !i.reaches estimate then estimate - 1
  else if i.reaches (estimate + 1) then estimate + 1
  else estimate

def shortest (tie : Tie) (x : Float) : Digits :=
  let i := Interval.ofBinary (Binary.ofFloat x)
  i.search tie 16 i.magnitude

end Stencil.Decimal
