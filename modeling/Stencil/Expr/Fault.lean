import Stencil.Expr.Basic
import Stencil.Value.Number

set_option autoImplicit false

namespace Stencil

inductive EvalFault where
  | undefined (name : String)
  | unknownFunction (name : String)
  | cannotNegate (operand : Value.Kind)
  | fieldOfList (field : String)
  | fieldOf (field : String) (target : Value.Kind)
  | invalidIndex (n : Number)
  | cannotIndex (target key : Value.Kind)
  | cannotApply (op : BinaryOp) (left right : Value.Kind)
  | notFinite
  | divisionByZero
  | moduloByZero
  | unordered
  | cannotCompare (left right : Value.Kind)
  | wrongCount (function : String) (expected found : Nat)
  | uncountable (function : String) (argument : Value.Kind)
  | oneOrTwo (function : String)
  | noList (function : String)
  | noIntegers
  | rangeTooLong (limit : Nat)

def BinaryOp.label : BinaryOp → String
  | .add => "Add"
  | .sub => "Sub"
  | .mul => "Mul"
  | .div => "Div"
  | .rem => "Rem"
  | .eq => "Eq"
  | .notEq => "NotEq"
  | .identical => "Identical"
  | .notIdentical => "NotIdentical"
  | .lt => "Lt"
  | .le => "Le"
  | .gt => "Gt"
  | .ge => "Ge"
  | .and => "And"
  | .or => "Or"

def EvalFault.message : EvalFault → String
  | .undefined name => "undefined variable '$" ++ name ++ "'"
  | .unknownFunction name => "unknown function '" ++ name ++ "'"
  | .cannotNegate operand => "cannot negate " ++ operand.name
  | .fieldOfList field => "cannot read field '" ++ field ++ "' of a list"
  | .fieldOf field target => "cannot read field '" ++ field ++ "' of " ++ target.name
  | .invalidIndex n => "invalid list index " ++ String.ofList n.text
  | .cannotIndex target key => "cannot index " ++ target.name ++ " with " ++ key.name
  | .cannotApply op left right =>
      "cannot apply " ++ op.label ++ " to " ++ left.name ++ " and " ++ right.name
  | .notFinite => "arithmetic result is not a finite number"
  | .divisionByZero => "division by zero"
  | .moduloByZero => "modulo by zero"
  | .unordered => "cannot order NaN"
  | .cannotCompare left right => "cannot compare " ++ left.name ++ " with " ++ right.name
  | .wrongCount function expected found =>
      function ++ "() takes " ++ toString expected ++ " argument" ++ (if expected = 1 then "" else "s")
        ++ ", got " ++ toString found
  | .uncountable function argument =>
      function ++ "() expects a list, object or string, got " ++ argument.name
  | .oneOrTwo function => function ++ "() takes 1 or 2 arguments"
  | .noList function => function ++ "() expects a list"
  | .noIntegers => "range() expects two integers"
  | .rangeTooLong limit => "range() is limited to " ++ toString limit ++ " items"

end Stencil
