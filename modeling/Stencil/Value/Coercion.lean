import Stencil.Json.Printer
import Stencil.Text.Blank

set_option autoImplicit false

namespace Stencil

def FitsSigned (n : Int) : Prop := -0x8000000000000000 ≤ n ∧ n < 0x8000000000000000

instance (n : Int) : Decidable (FitsSigned n) := inferInstanceAs (Decidable (_ ∧ _))

inductive Operand where
  | int (n : Int)
  | float (x : Float)

def Operand.toFloat : Operand → Float
  | .int n => Float.ofInt n
  | .float x => x

namespace Operand

open Decimal

def equal : Operand → Operand → Bool
  | .int m, .int n => m == n
  | x, y => x.toFloat == y.toFloat

def unsignedInteger? (digits : List Char) : Option Nat :=
  if !digits.isEmpty && digits.all isDigit then some (natOfDigits digits) else none

def signOf : List Char → Bool × List Char
  | '-' :: rest => (true, rest)
  | '+' :: rest => (false, rest)
  | text => (false, text)

def integer? (text : List Char) : Option Int :=
  let (negative, digits) := signOf text
  (unsignedInteger? digits).bind fun (n : Nat) =>
    let value : Int := if negative then -n else n
    if FitsSigned value then some value else none

def special? (text : List Char) : Option Float :=
  let lowered := text.map Char.toLower
  if lowered = ['i', 'n', 'f'] || lowered = ['i', 'n', 'f', 'i', 'n', 'i', 't', 'y'] then
    some (Float.ofBits 0x7FF0000000000000)
  else if lowered = ['n', 'a', 'n'] then some (Float.ofBits 0x7FF8000000000000)
  else none

def power? : List Char → Option Int
  | [] => some 0
  | c :: rest =>
      if c = 'e' || c = 'E' then
        let (negative, digits) := signOf rest
        (unsignedInteger? digits).map fun (n : Nat) => if negative then -(n : Int) else n
      else none

def pointDigits : List Char → List Char × List Char
  | '.' :: rest => (rest.takeWhile isDigit, rest.dropWhile isDigit)
  | text => ([], text)

def decimal? (text : List Char) : Option Float :=
  let whole := text.takeWhile isDigit
  let (fraction, rest) := pointDigits (text.dropWhile isDigit)
  if whole.isEmpty && fraction.isEmpty then none
  else (power? rest).map fun power =>
    nearest (natOfDigits (whole ++ fraction)) (power - fraction.length)

def float? (text : List Char) : Option Float :=
  let (negative, magnitude) := signOf text
  ((decimal? magnitude).or (special? magnitude)).map fun x => if negative then -x else x

def ofText? (text : String) : Option Operand :=
  let trimmed := Text.trim text.toList
  ((integer? trimmed).map .int).or ((float? trimmed).map .float)

end Operand

def Number.toOperand : Number → Operand
  | .int n _ => if FitsSigned n then .int n else .float (Float.ofInt n)
  | .float x _ => .float x

namespace Value

-- Integers beyond the signed ones take part in arithmetic as doubles.
def toOperand? : Value → Option Operand
  | .number n => some n.toOperand
  | .bool b => some (.int (if b then 1 else 0))
  | .null => some (.int 0)
  | .string s => Operand.ofText? s
  | .list _ => none
  | .object _ => none

def isTruthy : Value → Bool
  | .null => false
  | .bool b => b
  | .number n => n.toFloat != 0
  | .string s => s != "" && s != "0"
  | .list items => !items.isEmpty
  | .object fields => !fields.isEmpty

def output : Value → String
  | .null => ""
  | .bool b => if b then "true" else "false"
  | .number n => String.ofList n.text
  | .string s => s
  | .list items => (Value.list items).json
  | .object fields => (Value.object fields).json

def equalAsNumbers (left right : Value) : Bool :=
  match left.toOperand?, right.toOperand? with
  | some x, some y => Operand.equal x y
  | _, _ => false

def looselyEqual (left right : Value) : Bool :=
  match left, right with
  | .null, other => !other.isTruthy
  | other, .null => !other.isTruthy
  | .bool b, other => b == other.isTruthy
  | other, .bool b => b == other.isTruthy
  | .number _, .number _ => equalAsNumbers left right
  | .number _, .string _ => equalAsNumbers left right
  | .string _, .number _ => equalAsNumbers left right
  | _, _ => left.same right

end Value

end Stencil
