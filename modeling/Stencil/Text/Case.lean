import Stencil.Text.Blank
import Stencil.Text.CaseTable

set_option autoImplicit false

namespace Stencil.Text

def shifted : List (Nat × Nat × Nat × Int) → Nat → Nat
  | [], n => n
  | (first, last, stride, shift) :: rest, n =>
      if n < first then n
      else if n ≤ last && (n - first) % stride == 0 then (n + shift).toNat
      else shifted rest n

def upperChar (c : Char) : List Char :=
  match upperExpansions.lookup c.toNat with
  | some points => points.map Char.ofNat
  | none => [Char.ofNat (shifted upperRuns c.toNat)]

def lowerChar (c : Char) : List Char :=
  match lowerExpansions.lookup c.toNat with
  | some points => points.map Char.ofNat
  | none => [Char.ofNat (shifted lowerRuns c.toNat)]

def startsCased (text : List Char) : Bool :=
  match text.dropWhile fun c => inRanges caseIgnorableRanges c.toNat with
  | [] => false
  | c :: _ => inRanges casedRanges c.toNat

-- A sigma ends a word when a cased character stands before it and none after it.
def lowerSigma (before after : List Char) : Char :=
  if startsCased before && !startsCased after then 'ς' else 'σ'

def lowerAfter (before : List Char) : List Char → List Char
  | [] => []
  | c :: rest =>
      (if c = 'Σ' then [lowerSigma before rest] else lowerChar c) ++ lowerAfter (c :: before) rest

def upper (text : String) : String := String.ofList (text.toList.flatMap upperChar)

def lower (text : String) : String := String.ofList (lowerAfter [] text.toList)

def lowerAscii (text : String) : String := String.ofList (text.toList.map Char.toLower)

end Stencil.Text
