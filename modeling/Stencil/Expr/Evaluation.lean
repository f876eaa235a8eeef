import Stencil.Expr.Builtin

set_option autoImplicit false

namespace Stencil

mutual
def evaluate (vars : Fields) : Expr → Except EvalFault Value
  | .literal value => .ok value
  | .array items => (evaluateAll vars items).map .list
  | .var name =>
      match vars.get? name with
      | some value => .ok value
      | none => .error (.undefined name)
  | .member target field => do (← evaluate vars target).member field
  | .index target key => do
      let target ← evaluate vars target
      let key ← evaluate vars key
      target.index key
  | .unary op operand => do op.apply (← evaluate vars operand)
  | .binary .and left right => do
      if (← evaluate vars left).isTruthy then
        return .bool (← evaluate vars right).isTruthy
      else return .bool false
  | .binary .or left right => do
      if (← evaluate vars left).isTruthy then return .bool true
      else return .bool (← evaluate vars right).isTruthy
  | .binary op left right => do
      let left ← evaluate vars left
      let right ← evaluate vars right
      left.combine op right
  | .coalesce left right => do
      match ← soft vars left with
      | some value => if value.isNull then evaluate vars right else return value
      | none => evaluate vars right
  | .choice test positive negative => do
      if (← evaluate vars test).isTruthy then evaluate vars positive else evaluate vars negative
  | .elvis test otherwise => do
      let value ← evaluate vars test
      if value.isTruthy then return value else evaluate vars otherwise
  | .call function args => do Builtin.call function (← evaluateAll vars args)
  | .isset target => do
      match ← soft vars target with
      | some value => return .bool !value.isNull
      | none => return .bool false
  | .empty target => do
      match ← soft vars target with
      | some value => return .bool !value.isTruthy
      | none => return .bool true
termination_by e => 2 * sizeOf e
decreasing_by
  all_goals
    simp only [Expr.array.sizeOf_spec, Expr.member.sizeOf_spec, Expr.index.sizeOf_spec,
      Expr.unary.sizeOf_spec, Expr.binary.sizeOf_spec, Expr.coalesce.sizeOf_spec,
      Expr.choice.sizeOf_spec, Expr.elvis.sizeOf_spec, Expr.call.sizeOf_spec,
      Expr.isset.sizeOf_spec, Expr.empty.sizeOf_spec]
    omega

-- The value of a path, absent where it leads nowhere. Other expressions are evaluated as usual.
def soft (vars : Fields) : Expr → Except EvalFault (Option Value)
  | .var name => .ok (vars.get? name)
  | .member target field => do
      match ← soft vars target with
      | some value => return (value.member field).toOption
      | none => return none
  | .index target key => do
      match ← soft vars target with
      | some value => return (value.index (← evaluate vars key)).toOption
      | none => return none
  | other => (evaluate vars other).map some
termination_by e => 2 * sizeOf e + 1
decreasing_by
  all_goals first
    | omega
    | simp only [Expr.member.sizeOf_spec, Expr.index.sizeOf_spec]; omega

def evaluateAll (vars : Fields) : List Expr → Except EvalFault (List Value)
  | [] => .ok []
  | e :: rest => do
      let value ← evaluate vars e
      return value :: (← evaluateAll vars rest)
termination_by es => 2 * sizeOf es
decreasing_by
  all_goals simp only [List.cons.sizeOf_spec]
  all_goals omega
end

end Stencil
