import Stencil.Toml.Text

set_option autoImplicit false

namespace Stencil.Toml

-- A value as far as a setting needs it; of numbers with a fraction, dates, arrays and tables only
-- the presence is kept.
inductive Setting where
  | string (s : String)
  | integer (n : Int)
  | boolean (b : Bool)
  | other

open Decimal (isDigit natOfDigits)

def digits? (isOne : Char → Bool) : List Char → Option (List Char)
  | [] => none
  | [c] => if isOne c then some [c] else none
  | c :: '_' :: rest => if isOne c then (digits? isOne rest).map (c :: ·) else none
  | c :: rest => if isOne c then (digits? isOne rest).map (c :: ·) else none

def decimal? (text : List Char) : Option (List Char) :=
  match digits? isDigit text with
  | some ['0'] => some ['0']
  | some ('0' :: _) => none
  | found => found

def valueIn (base : Nat) (digits : List Char) : Int :=
  digits.foldl (fun n c => base * n + (Text.hexValue? c).getD 0) 0

def isDigitBelow (limit : Nat) (c : Char) : Bool := (Text.hexValue? c).any (· < limit)

def unsignedInteger? (text : List Char) : Option Int :=
  match text with
  | '0' :: 'x' :: rest => (digits? (isDigitBelow 16) rest).map (valueIn 16)
  | '0' :: 'o' :: rest => (digits? (isDigitBelow 8) rest).map (valueIn 8)
  | '0' :: 'b' :: rest => (digits? (isDigitBelow 2) rest).map (valueIn 2)
  | _ => (decimal? text).map (valueIn 10)

def unsigned (text : List Char) : List Char :=
  match text with
  | '+' :: rest => rest
  | '-' :: rest => rest
  | _ => text

def integer? (text : List Char) : Option Int :=
  match text with
  | '+' :: rest => (decimal? rest).map (valueIn 10)
  | '-' :: rest => (decimal? rest).map fun digits => -valueIn 10 digits
  | _ => unsignedInteger? text

def isExponentMark (c : Char) : Bool := c = 'e' || c = 'E'

def isExponent (text : List Char) : Bool :=
  match text with
  | [] => true
  | mark :: rest => isExponentMark mark && (digits? isDigit (unsigned rest)).isSome

def isFraction (text : List Char) : Bool :=
  match text with
  | '.' :: rest =>
      (digits? isDigit (rest.takeWhile fun c => !isExponentMark c)).isSome
        && isExponent (rest.dropWhile fun c => !isExponentMark c)
  | _ => !text.isEmpty && isExponent text

def isFloat (text : List Char) : Bool :=
  let magnitude := unsigned text
  let inWhole (c : Char) : Bool := isDigit c || c = '_'
  magnitude = "inf".toList || magnitude = "nan".toList
    || ((decimal? (magnitude.takeWhile inWhole)).isSome && isFraction (magnitude.dropWhile inWhole))

def between (count low high : Nat) (text : List Char) : Bool :=
  text.length = count && text.all isDigit && low ≤ natOfDigits text && natOfDigits text ≤ high

def daysOf (year month : Nat) : Nat :=
  if month = 2 then
    if (year % 4 = 0 && year % 100 != 0) || year % 400 = 0 then 29 else 28
  else if month = 4 || month = 6 || month = 9 || month = 11 then 30 else 31

def isDay (text : List Char) : Bool :=
  let year := text.take 4
  let month := (text.drop 5).take 2
  between 4 0 9999 year && text[4]? = some '-' && between 2 1 12 month && text[7]? = some '-'
    && between 2 1 (daysOf (natOfDigits year) (natOfDigits month)) (text.drop 8)

def isClock (text : List Char) : Bool :=
  between 2 0 23 (text.take 2) && text[2]? = some ':' && between 2 0 59 ((text.drop 3).take 2)

def isSeconds (text : List Char) : Bool :=
  match text with
  | ':' :: rest =>
      between 2 0 60 (rest.take 2) &&
        match rest.drop 2 with
        | [] => true
        | '.' :: fraction => !fraction.isEmpty && fraction.all isDigit
        | _ => false
  | _ => false

def isTime (text : List Char) : Bool :=
  isClock (text.take 5) && (text.length = 5 || isSeconds (text.drop 5))

def isOffset (text : List Char) : Bool :=
  match text with
  | [] => true
  | ['Z'] => true
  | ['z'] => true
  | '+' :: rest => rest.length = 5 && isClock rest
  | '-' :: rest => rest.length = 5 && isClock rest
  | _ => false

def isInTime (c : Char) : Bool := isDigit c || c = ':' || c = '.'

def isDate (text : List Char) : Bool :=
  isTime text ||
    (isDay (text.take 10) &&
      match text.drop 10 with
      | [] => true
      | mark :: rest =>
          (mark = 'T' || mark = 't' || mark = ' ') && isTime (rest.takeWhile isInTime)
            && isOffset (rest.dropWhile isInTime))

-- The mark of a base without digits is an empty numeral. It may stand in a document, but it is no
-- number.
def isEmptyNumeral (text : List Char) : Bool :=
  text = ['0', 'x'] || text = ['0', 'o'] || text = ['0', 'b']

def scalar? (text : List Char) : Option Setting :=
  if text = "true".toList then some (.boolean true)
  else if text = "false".toList then some (.boolean false)
  else
    match integer? text with
    | some n => some (.integer n)
    | none => if isFloat text || isDate text || isEmptyNumeral text then some .other else none

def endsScalar (c : Char) : Bool :=
  isBlank c || isControl c || c = ',' || c = ']' || c = '\x7d' || c = '#'

def unquoted? (text : List Char) : Option (Setting × List Char) :=
  let first := text.takeWhile fun c => !endsScalar c
  let rest := text.drop first.length
  let longer := match rest with
    | ' ' :: time => first ++ ' ' :: time.takeWhile fun c => !endsScalar c
    | _ => first
  if isDate longer then some (.other, text.drop longer.length)
  else (scalar? first).map fun setting => (setting, rest)

end Stencil.Toml
