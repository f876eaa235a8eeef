import Stencil.Value.Basic

set_option autoImplicit false

namespace Stencil

inductive UnaryOp where
  | not | neg
deriving DecidableEq, Repr

inductive BinaryOp where
  | add | sub | mul | div | rem
  | eq | notEq | identical | notIdentical
  | lt | le | gt | ge
  | and | or
deriving DecidableEq, Repr

-- `choice` is `test ? positive : negative`, `elvis` is `test ?: otherwise`.
inductive Expr where
  | literal (value : Value)
  | array (items : List Expr)
  | var (name : String)
  | member (target : Expr) (field : String)
  | index (target key : Expr)
  | unary (op : UnaryOp) (operand : Expr)
  | binary (op : BinaryOp) (left right : Expr)
  | coalesce (left right : Expr)
  | choice (test positive negative : Expr)
  | elvis (test otherwise : Expr)
  | call (function : String) (args : List Expr)
  | isset (target : Expr)
  | empty (target : Expr)

def Expr.negate (e : Expr) : Expr := .unary .not e

inductive Assignment where
  | set (name : String) (value : Expr)
  | add (name : String) (value : Expr)
  | sub (name : String) (value : Expr)
  | increment (name : String)
  | decrement (name : String)

structure EachHeader where
  source : Expr
  key : Option String
  value : String

structure ForHeader where
  init : List Assignment
  condition : Option Expr
  step : List Assignment

end Stencil
