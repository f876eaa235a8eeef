import Stencil.Expr.Lexer
import Stencil.Expr.Parser
import Stencil.Proofs.Json.Numeral

set_option autoImplicit false

namespace Stencil

namespace Token

def escape (c : Char) : List Char := if c = '\\' || c = '\'' then ['\\', c] else [c]

def spelling : Token → List Char
  | .variableName name => '$' :: name.toList
  | .word name => name.toList
  | .int n => Decimal.natDigits n
  | .float x => Decimal.plainText x
  | .text content => '\'' :: (content.toList.flatMap escape ++ ['\''])
  | .symbol s => s.spelling

def spaced : List Token → List Char
  | [] => []
  | [token] => token.spelling
  | token :: rest => token.spelling ++ ' ' :: spaced rest

end Token

def Level.rank : Level → Nat
  | .either => 2
  | .both => 3
  | .equality => 4
  | .comparison => 5
  | .sum => 6
  | .product => 7

def UnaryOp.symbol : UnaryOp → Symbol
  | .not => .bang
  | .neg => .minus

namespace BinaryOp

def level : BinaryOp → Level
  | .or => .either
  | .and => .both
  | .eq | .notEq | .identical | .notIdentical => .equality
  | .lt | .le | .gt | .ge => .comparison
  | .add | .sub => .sum
  | .mul | .div | .rem => .product

def symbol : BinaryOp → Symbol
  | .add => .plus
  | .sub => .minus
  | .mul => .star
  | .div => .slash
  | .rem => .percent
  | .eq => .equal
  | .notEq => .notEqual
  | .identical => .identical
  | .notIdentical => .notIdentical
  | .lt => .less
  | .le => .atMost
  | .gt => .greater
  | .ge => .atLeast
  | .and => .both
  | .or => .either

theorem ofToken_symbol (op : BinaryOp) : op.level.ofToken? (.symbol op.symbol) = some op := by
  cases op <;> rfl

end BinaryOp

-- A list and an object cannot be written.
def Value.token : Value → Token
  | .bool true => .word "true"
  | .bool false => .word "false"
  | .number (.int n _) => .int n.toNat
  | .number (.float x _) => .float x
  | .string s => .text s
  | _ => .word "null"

def fieldToken (field : String) : Token :=
  if field.toList.all Decimal.isDigit then .int (Decimal.natOfDigits field.toList) else .word field

namespace Expr

def rank : Expr → Nat
  | .choice _ _ _ | .elvis _ _ => 0
  | .coalesce _ _ => 1
  | .binary op _ _ => op.level.rank
  | .unary _ _ => 8
  | .member _ _ | .index _ _ => 9
  | _ => 10

def enclosed (loosest rank : Nat) (tokens : List Token) : List Token :=
  if rank < loosest then .symbol .openParen :: (tokens ++ [.symbol .closeParen]) else tokens

mutual
def tokens : Expr → List Token
  | .literal value => [value.token]
  | .array items => .symbol .openBracket :: (listTokens items ++ [.symbol .closeBracket])
  | .var name => [.variableName name]
  | .member target field => enclosed 9 target.rank target.tokens ++ [.symbol .dot, fieldToken field]
  | .index target key =>
      enclosed 9 target.rank target.tokens ++
        .symbol .openBracket :: (key.tokens ++ [.symbol .closeBracket])
  | .unary op operand => .symbol op.symbol :: enclosed 8 operand.rank operand.tokens
  | .binary op left right =>
      enclosed op.level.rank left.rank left.tokens ++
        .symbol op.symbol :: enclosed (op.level.rank + 1) right.rank right.tokens
  | .coalesce left right =>
      enclosed 2 left.rank left.tokens ++ .symbol .coalesce :: enclosed 1 right.rank right.tokens
  | .choice test positive negative =>
      enclosed 1 test.rank test.tokens ++
        .symbol .question :: (positive.tokens ++ .symbol .colon :: negative.tokens)
  | .elvis test otherwise =>
      enclosed 1 test.rank test.tokens ++ .symbol .question :: .symbol .colon :: otherwise.tokens
  | .call function args =>
      .word function :: .symbol .openParen :: (listTokens args ++ [.symbol .closeParen])
  | .isset target => .word "isset" :: .symbol .openParen :: (target.tokens ++ [.symbol .closeParen])
  | .empty target => .word "empty" :: .symbol .openParen :: (target.tokens ++ [.symbol .closeParen])

def listTokens : List Expr → List Token
  | [] => []
  | e :: rest => e.tokens ++ moreTokens rest

def moreTokens : List Expr → List Token
  | [] => []
  | e :: rest => .symbol .comma :: (e.tokens ++ moreTokens rest)
end

def print (e : Expr) : List Char := Token.spaced e.tokens

end Expr

def IsName (name : String) : Prop :=
  name.toList.all isNameChar ∧ ∃ c ∈ name.toList.head?, Decimal.isDigit c = false

def Value.Written (value : Value) : Prop :=
  value = .null ∨ (∃ b, value = .bool b) ∨ (∃ n, n ≤ greatestInteger ∧ value = .ofNat n) ∨ ∃ s, value = .string s

def reservedCalls : List String := ["not", "isset", "empty"]

namespace Expr

mutual
def Written (numeral : Nat → Prop) : Expr → Prop
  | .literal value => value.Written
  | .array items => AllWritten numeral items
  | .var name => IsName name
  | .member target field =>
      target.Written numeral ∧ (IsName field ∨ ∃ n, numeral n ∧ field = toString n)
  | .index target key => target.Written numeral ∧ key.Written numeral
  | .unary _ operand => operand.Written numeral
  | .binary _ left right => left.Written numeral ∧ right.Written numeral
  | .coalesce left right => left.Written numeral ∧ right.Written numeral
  | .choice test positive negative =>
      test.Written numeral ∧ positive.Written numeral ∧ negative.Written numeral
  | .elvis test otherwise => test.Written numeral ∧ otherwise.Written numeral
  | .call function args =>
      IsName function ∧ Text.lowerAscii function ∉ reservedCalls ∧ AllWritten numeral args
  | .isset target => target.Written numeral
  | .empty target => target.Written numeral

def AllWritten (numeral : Nat → Prop) : List Expr → Prop
  | [] => True
  | e :: rest => e.Written numeral ∧ AllWritten numeral rest
end

end Expr

end Stencil
