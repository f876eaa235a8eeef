import Stencil.Decimal.Read
import Stencil.Text.Hex
import Stencil.Text.Scan

set_option autoImplicit false

namespace Stencil.Toml

def isBlank (c : Char) : Bool := c = ' ' || c = '\t'

def isControl (c : Char) : Bool := (c.toNat < 0x20 && c != '\t') || c.toNat = 0x7F

def skipBlanks (text : List Char) : List Char := text.dropWhile isBlank

def newLine? : List Char → Option (List Char)
  | '\n' :: rest => some rest
  | '\r' :: '\n' :: rest => some rest
  | _ => none

def endOfLine? (text : List Char) : Option (List Char) :=
  let rest := match skipBlanks text with
    | '#' :: comment => comment.dropWhile fun c => !isControl c
    | other => other
  if rest.isEmpty then some [] else newLine? rest

def codePoint? (digits : List Char) : Option Char :=
  match digits.mapM Text.hexValue? with
  | some values =>
      let n := values.foldl (fun n digit => 16 * n + digit) 0
      if n.isValidChar then some (Char.ofNat n) else none
  | none => none

def pointEscape? (count : Nat) (text : List Char) : Option (Char × List Char) :=
  if text.length < count then none
  else (codePoint? (text.take count)).map fun c => (c, text.drop count)

def escape? : List Char → Option (Char × List Char)
  | 'b' :: rest => some ('\x08', rest)
  | 't' :: rest => some ('\t', rest)
  | 'n' :: rest => some ('\n', rest)
  | 'f' :: rest => some ('\x0c', rest)
  | 'r' :: rest => some ('\r', rest)
  | 'e' :: rest => some ('\x1b', rest)
  | '"' :: rest => some ('"', rest)
  | '\\' :: rest => some ('\\', rest)
  | 'x' :: rest => pointEscape? 2 rest
  | 'u' :: rest => pointEscape? 4 rest
  | 'U' :: rest => pointEscape? 8 rest
  | _ => none

def skipFiller : List Char → List Char
  | '\r' :: '\n' :: rest => skipFiller rest
  | c :: rest => if isBlank c || c = '\n' then skipFiller rest else c :: rest
  | [] => []

def joinedLine? (text : List Char) : Option (List Char) :=
  (newLine? (skipBlanks text)).map skipFiller

-- In the three functions on quoted texts `fuel` bounds the number of characters.
def basic? (fuel : Nat) (text : List Char) : Option (List Char × List Char) :=
  match fuel, text with
  | fuel + 1, c :: rest =>
      if c = '"' then some ([], rest)
      else if c = '\\' then
        match escape? rest with
        | some (plain, after) => Text.prepend plain (basic? fuel after)
        | none => none
      else if isControl c then none
      else Text.prepend c (basic? fuel rest)
  | _, _ => none

def literal? (fuel : Nat) (text : List Char) : Option (List Char × List Char) :=
  match fuel, text with
  | fuel + 1, c :: rest =>
      if c = '\'' then some ([], rest)
      else if isControl c then none
      else Text.prepend c (literal? fuel rest)
  | _, _ => none

-- Three quotes end a text of several lines; up to two more before them belong to it.
def closing? (quote : Char) (text : List Char) : Option (List Char × List Char) :=
  let quotes := (text.takeWhile (· = quote)).length
  if 3 ≤ quotes && quotes ≤ 5 then
    some (List.replicate (quotes - 3) quote, text.drop quotes)
  else none

def lines? (quote : Char) (fuel : Nat) (text : List Char) : Option (List Char × List Char) :=
  match closing? quote text with
  | some ending => some ending
  | none =>
      match fuel, text with
      | fuel + 1, c :: rest =>
          if c = '\\' && quote = '"' then
            match joinedLine? rest, escape? rest with
            | some after, _ => lines? quote fuel after
            | none, some (plain, after) => Text.prepend plain (lines? quote fuel after)
            | none, none => none
          else if c = '\r' && rest.head? != some '\n' then none
          else if isControl c && c != '\n' && c != '\r' then none
          else if c = quote && (rest.takeWhile (· = quote)).length ≥ 5 then none
          else Text.prepend c (lines? quote fuel rest)
      | _, _ => none

def afterFirstBreak (text : List Char) : List Char := (newLine? text).getD text

def quoted? : List Char → Option (List Char × List Char)
  | '"' :: '"' :: '"' :: rest => lines? '"' rest.length (afterFirstBreak rest)
  | '\'' :: '\'' :: '\'' :: rest => lines? '\'' rest.length (afterFirstBreak rest)
  | '"' :: rest => basic? rest.length rest
  | '\'' :: rest => literal? rest.length rest
  | _ => none

def isBare (c : Char) : Bool := c.isAlphanum || c = '_' || c = '-'

def simpleKey? (text : List Char) : Option (String × List Char) :=
  let bare := text.takeWhile isBare
  let found := match text with
    | '"' :: rest => basic? rest.length rest
    | '\'' :: rest => literal? rest.length rest
    | _ => if bare.isEmpty then none else some (bare, text.dropWhile isBare)
  found.map fun (key, after) => (String.ofList key, skipBlanks after)

structure Key where
  path : List String
  name : String
deriving DecidableEq, Repr

def dottedKey? (fuel : Nat) (text : List Char) : Option (Key × List Char) :=
  match fuel, simpleKey? (skipBlanks text) with
  | fuel + 1, some (name, '.' :: rest) =>
      (dottedKey? fuel rest).map fun (key, after) => (⟨name :: key.path, key.name⟩, after)
  | _, some (name, rest) => some (⟨[], name⟩, rest)
  | _, none => none

def nestingLimit : Nat := 80

def key? (text : List Char) : Option (Key × List Char) :=
  match dottedKey? text.length text with
  | some (key, rest) => if key.path.length < nestingLimit then some (key, rest) else none
  | none => none

end Stencil.Toml
