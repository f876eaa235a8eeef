import Stencil.Decimal.Remainder
import Stencil.Expr.Fault
import Stencil.Value.Coercion

set_option autoImplicit false

namespace Stencil

def finite (x : Float) : Except EvalFault Value :=
  match Number.ofFloat? x with
  | some n => .ok (.number n)
  | none => .error .notFinite

def signed? (n : Int) : Option Value :=
  if FitsSigned n then (Number.ofInt? n).map .number else none

namespace Value

def negate (value : Value) : Except EvalFault Value :=
  match value.toOperand? with
  | some (.int n) =>
      match signed? (-n) with
      | some result => .ok result
      | none => finite (-(Float.ofInt n))
  | some (.float x) => finite (-x)
  | none => .error (.cannotNegate value.kind)

def divisionFault : BinaryOp → EvalFault
  | .rem => .moduloByZero
  | _ => .divisionByZero

def exactly? (op : BinaryOp) (a b : Int) : Option Value :=
  match op with
  | .add => signed? (a + b)
  | .sub => signed? (a - b)
  | .mul => signed? (a * b)
  | .div => if a.tmod b = 0 then signed? (a.tdiv b) else none
  -- The remainder would fit, but it is given up with its quotient.
  | .rem => if FitsSigned (a.tdiv b) then signed? (a.tmod b) else none
  | _ => none

def inexact (op : BinaryOp) (x y : Float) : Float :=
  match op with
  | .add => x + y
  | .sub => x - y
  | .mul => x * y
  | .div => x / y
  | _ => Decimal.remainder x y

def divides : BinaryOp → Bool
  | .div => true
  | .rem => true
  | _ => false

def calculate (op : BinaryOp) (left right : Operand) : Except EvalFault Value :=
  match left, right with
  | .int a, .int b =>
      if divides op && b == 0 then .error (divisionFault op)
      else
        match exactly? op a b with
        | some result => .ok result
        | none => finite (inexact op (Float.ofInt a) (Float.ofInt b))
  | x, y =>
      if divides op && y.toFloat == 0 then .error (divisionFault op)
      else finite (inexact op x.toFloat y.toFloat)

def arithmetic (op : BinaryOp) (left right : Value) : Except EvalFault Value :=
  match left.toOperand?, right.toOperand? with
  | some x, some y => calculate op x y
  | _, _ => .error (.cannotApply op left.kind right.kind)

def compareFloats (x y : Float) : Except EvalFault Ordering :=
  if x < y then .ok .lt
  else if x > y then .ok .gt
  else if x == y then .ok .eq
  else .error .unordered

def order (left right : Value) : Except EvalFault Ordering :=
  match left, right with
  | .string a, .string b => .ok (compare a b)
  | _, _ =>
      match left.toOperand?, right.toOperand? with
      | some (.int a), some (.int b) => .ok (compare a b)
      | some x, some y => compareFloats x.toFloat y.toFloat
      | _, _ => .error (.cannotCompare left.kind right.kind)

def plus (left right : Value) : Except EvalFault Value :=
  if left.kind == .string || right.kind == .string then .ok (.string (left.output ++ right.output))
  else arithmetic .add left right

def combine (op : BinaryOp) (left right : Value) : Except EvalFault Value :=
  match op with
  | .eq => .ok (.bool (left.looselyEqual right))
  | .notEq => .ok (.bool !left.looselyEqual right)
  | .identical => .ok (.bool (left.same right))
  | .notIdentical => .ok (.bool !left.same right)
  | .lt => (order left right).map fun o => .bool (o == .lt)
  | .le => (order left right).map fun o => .bool (o != .gt)
  | .gt => (order left right).map fun o => .bool (o == .gt)
  | .ge => (order left right).map fun o => .bool (o != .lt)
  | .add => plus left right
  | .and => .ok (.bool (left.isTruthy && right.isTruthy))
  | .or => .ok (.bool (left.isTruthy || right.isTruthy))
  | op => arithmetic op left right

def position? (field : String) : Option Nat :=
  let digits := match field.toList with
    | '+' :: rest => rest
    | text => text
  match Operand.unsignedInteger? digits with
  | some n => if n < Decimal.wordLimit then some n else none
  | none => none

def item (items : List Value) (n : Nat) : Value := items[n]?.getD .null

def entry (fields : Fields) (name : String) : Value := (fields.get? name).getD .null

def member (target : Value) (field : String) : Except EvalFault Value :=
  match target with
  | .object fields => .ok (entry fields field)
  | .list items =>
      match position? field with
      | some n => .ok (item items n)
      | none => .error (.fieldOfList field)
  | .null => .ok .null
  | other => .error (.fieldOf field other.kind)

def indexNumber (items : List Value) (n : Number) : Except EvalFault Value :=
  match n with
  | .int (.ofNat i) _ => .ok (item items i)
  | n => .error (.invalidIndex n)

def index (target key : Value) : Except EvalFault Value :=
  match target, key with
  | .list items, .number n => indexNumber items n
  | .object fields, key => .ok (entry fields key.output)
  | .null, _ => .ok .null
  | target, key => .error (.cannotIndex target.kind key.kind)

end Value

def UnaryOp.apply (op : UnaryOp) (value : Value) : Except EvalFault Value :=
  match op with
  | .not => .ok (.bool !value.isTruthy)
  | .neg => value.negate

end Stencil
