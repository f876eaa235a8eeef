import Stencil.Decimal.Notation

set_option autoImplicit false

namespace Stencil

inductive Symbol where
  | openParen | closeParen | openBracket | closeBracket
  | comma | semicolon | dot | arrow | fatArrow
  | question | colon | coalesce | bang
  | plus | minus | star | slash | percent
  | equal | notEqual | identical | notIdentical
  | less | atMost | greater | atLeast
  | both | either
  | assign | plusAssign | minusAssign | increment | decrement
deriving DecidableEq, Repr

namespace Symbol

-- Longer spellings come first, so that the first match is the longest.
def all : List Symbol :=
  [.identical, .notIdentical,
    .equal, .notEqual, .atMost, .atLeast, .both, .either, .coalesce, .arrow, .fatArrow,
    .plusAssign, .minusAssign, .increment, .decrement,
    .openParen, .closeParen, .openBracket, .closeBracket, .comma, .semicolon, .dot,
    .question, .colon, .bang, .plus, .minus, .star, .slash, .percent, .less, .greater, .assign]

def spelling : Symbol → List Char
  | .openParen => ['(']
  | .closeParen => [')']
  | .openBracket => ['[']
  | .closeBracket => [']']
  | .comma => [',']
  | .semicolon => [';']
  | .dot => ['.']
  | .arrow => ['-', '>']
  | .fatArrow => ['=', '>']
  | .question => ['?']
  | .colon => [':']
  | .coalesce => ['?', '?']
  | .bang => ['!']
  | .plus => ['+']
  | .minus => ['-']
  | .star => ['*']
  | .slash => ['/']
  | .percent => ['%']
  | .equal => ['=', '=']
  | .notEqual => ['!', '=']
  | .identical => ['=', '=', '=']
  | .notIdentical => ['!', '=', '=']
  | .less => ['<']
  | .atMost => ['<', '=']
  | .greater => ['>']
  | .atLeast => ['>', '=']
  | .both => ['&', '&']
  | .either => ['|', '|']
  | .assign => ['=']
  | .plusAssign => ['+', '=']
  | .minusAssign => ['-', '=']
  | .increment => ['+', '+']
  | .decrement => ['-', '-']

def label : Symbol → String
  | .openParen => "LParen"
  | .closeParen => "RParen"
  | .openBracket => "LBracket"
  | .closeBracket => "RBracket"
  | .comma => "Comma"
  | .semicolon => "Semicolon"
  | .dot => "Dot"
  | .arrow => "Arrow"
  | .fatArrow => "FatArrow"
  | .question => "Question"
  | .colon => "Colon"
  | .coalesce => "Coalesce"
  | .bang => "Bang"
  | .plus => "Plus"
  | .minus => "Minus"
  | .star => "Star"
  | .slash => "Slash"
  | .percent => "Percent"
  | .equal => "EqEq"
  | .notEqual => "NotEq"
  | .identical => "Identical"
  | .notIdentical => "NotIdentical"
  | .less => "Lt"
  | .atMost => "Le"
  | .greater => "Gt"
  | .atLeast => "Ge"
  | .both => "AndAnd"
  | .either => "OrOr"
  | .assign => "Assign"
  | .plusAssign => "PlusAssign"
  | .minusAssign => "MinusAssign"
  | .increment => "Increment"
  | .decrement => "Decrement"

end Symbol

inductive Token where
  | variableName (name : String)
  | word (name : String)
  | int (n : Nat)
  | float (x : Float)
  | text (content : String)
  | symbol (s : Symbol)

structure Located where
  token : Token
  offset : Nat

def Token.describe : Option Token → String
  | none => "end of expression"
  | some (.variableName name) => "variable '$" ++ name ++ "'"
  | some (.word name) => "'" ++ name ++ "'"
  | some (.int n) => "number " ++ toString n
  | some (.float x) => "number " ++ String.ofList (Decimal.plainText x)
  | some (.text _) => "string literal"
  | some (.symbol s) => "token " ++ s.label

inductive Expectation where
  | afterInit | afterCondition | colon | closeBracket | closeParen | commaOrBracket | commaOrParen
  | asKeyword
deriving DecidableEq, Repr

def Expectation.text : Expectation → String
  | .afterInit => "';' after for initializer"
  | .afterCondition => "';' after for condition"
  | .colon => "':' in conditional expression"
  | .closeBracket => "']'"
  | .closeParen => "')'"
  | .commaOrBracket => "',' or ']' in array literal"
  | .commaOrParen => "',' or ')' in call"
  | .asKeyword => "'as' in foreach header"

inductive ParseFault where
  | noVariableName
  | digitFirst
  | tooLarge (digits : String)
  | unexpectedCharacter (c : Char)
  | unterminated
  | unexpected (found : Option Token)
  | expectedVariable (found : Option Token)
  | expectedAssignment (name : String) (found : Option Token)
  | expectedField (found : Option Token)
  | expected (what : Expectation)
  | tooDeep
  | notFinite
  | oneArgument (function : String)
  | unknownIdentifier (name : String)

def ParseFault.text : ParseFault → String
  | .noVariableName => "expected a variable name after '$'"
  | .digitFirst => "variable names cannot start with a digit"
  | .tooLarge digits => "integer '" ++ digits ++ "' is too large"
  | .unexpectedCharacter c => "unexpected character '" ++ String.singleton c ++ "'"
  | .unterminated => "unterminated string literal"
  | .unexpected found => "unexpected " ++ Token.describe found
  | .expectedVariable found => "expected a variable, found " ++ Token.describe found
  | .expectedAssignment name found =>
      "expected an assignment to $" ++ name ++ ", found " ++ Token.describe found
  | .expectedField found => "expected a field name, found " ++ Token.describe found
  | .expected what => "expected " ++ what.text
  | .tooDeep => "expression nested too deeply"
  | .notFinite => "number is not finite"
  | .oneArgument function => function ++ "() takes exactly one argument"
  | .unknownIdentifier name => "unknown identifier '" ++ name ++ "' (variables start with '$')"

structure ParseError where
  fault : ParseFault
  offset : Nat

def ParseError.message (error : ParseError) : String :=
  error.fault.text ++ " (at column " ++ toString (error.offset + 1) ++ ")"

end Stencil
