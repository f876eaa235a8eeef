import Stencil.Expr.Basic
import Stencil.Json.Record

set_option autoImplicit false

namespace Stencil

open Json (Tree Field Variant)

namespace UnaryOp

def all : List UnaryOp := [.not, .neg]

def code : UnaryOp → String
  | .not => "not"
  | .neg => "neg"

end UnaryOp

namespace BinaryOp

def all : List BinaryOp :=
  [.add, .sub, .mul, .div, .rem, .eq, .notEq, .identical, .notIdentical, .lt, .le, .gt, .ge,
    .and, .or]

def code : BinaryOp → String
  | .add => "add"
  | .sub => "sub"
  | .mul => "mul"
  | .div => "div"
  | .rem => "rem"
  | .eq => "eq"
  | .notEq => "not_eq"
  | .identical => "identical"
  | .notIdentical => "not_identical"
  | .lt => "lt"
  | .le => "le"
  | .gt => "gt"
  | .ge => "ge"
  | .and => "and"
  | .or => "or"

end BinaryOp

namespace Expr

inductive Form where
  | literal | array | var | member | index | unary | binary | coalesce | ternary | call | isset
  | empty
deriving DecidableEq, Repr

def Form.name : Form → String
  | .literal => "literal"
  | .array => "array"
  | .var => "var"
  | .member => "member"
  | .index => "index"
  | .unary => "unary"
  | .binary => "binary"
  | .coalesce => "coalesce"
  | .ternary => "ternary"
  | .call => "call"
  | .isset => "isset"
  | .empty => "empty"

def Form.fields : Form → List Field
  | .literal => [⟨"value", false⟩]
  | .array => [⟨"items", false⟩]
  | .var => [⟨"name", false⟩]
  | .member => [⟨"target", false⟩, ⟨"field", false⟩]
  | .index => [⟨"target", false⟩, ⟨"index", false⟩]
  | .unary => [⟨"op", false⟩, ⟨"operand", false⟩]
  | .binary => [⟨"op", false⟩, ⟨"left", false⟩, ⟨"right", false⟩]
  | .coalesce => [⟨"left", false⟩, ⟨"right", false⟩]
  | .ternary => [⟨"test", false⟩, ⟨"then", true⟩, ⟨"otherwise", false⟩]
  | .call => [⟨"function", false⟩, ⟨"args", false⟩]
  | .isset => [⟨"target", false⟩]
  | .empty => [⟨"target", false⟩]

def forms : Variant Form where
  tag := "kind"
  forms := [.literal, .array, .var, .member, .index, .unary, .binary, .coalesce, .ternary, .call,
    .isset, .empty]
  name := Form.name
  fields := Form.fields

mutual
def toTree : Expr → Tree
  | .literal value => forms.write .literal [.ofValue value]
  | .array items => forms.write .array [.array (toTrees items)]
  | .var name => forms.write .var [.string name]
  | .member target field => forms.write .member [target.toTree, .string field]
  | .index target key => forms.write .index [target.toTree, key.toTree]
  | .unary op operand => forms.write .unary [.string op.code, operand.toTree]
  | .binary op left right => forms.write .binary [.string op.code, left.toTree, right.toTree]
  | .coalesce left right => forms.write .coalesce [left.toTree, right.toTree]
  | .choice test positive negative =>
      forms.write .ternary [test.toTree, positive.toTree, negative.toTree]
  | .elvis test otherwise => forms.write .ternary [test.toTree, .null, otherwise.toTree]
  | .call function args => forms.write .call [.string function, .array (toTrees args)]
  | .isset target => forms.write .isset [target.toTree]
  | .empty target => forms.write .empty [target.toTree]

def toTrees : List Expr → List Tree
  | [] => []
  | e :: rest => e.toTree :: toTrees rest
end

mutual
def ofTree? (tree : Tree) : Option Expr := do
  match ← forms.read? true tree with
  | (.literal, [⟨value, _⟩]) => return .literal (← value.toValue?)
  | (.array, [⟨members, _⟩]) => return .array (← ofArray? members)
  | (.var, [⟨name, _⟩]) => return .var (← name.string?)
  | (.member, [⟨target, _⟩, ⟨field, _⟩]) => return .member (← ofTree? target) (← field.string?)
  | (.index, [⟨target, _⟩, ⟨key, _⟩]) => return .index (← ofTree? target) (← ofTree? key)
  | (.unary, [⟨op, _⟩, ⟨operand, _⟩]) =>
      return .unary (← op.choice? UnaryOp.all UnaryOp.code) (← ofTree? operand)
  | (.binary, [⟨op, _⟩, ⟨left, _⟩, ⟨right, _⟩]) =>
      return .binary (← op.choice? BinaryOp.all BinaryOp.code) (← ofTree? left) (← ofTree? right)
  | (.coalesce, [⟨left, _⟩, ⟨right, _⟩]) => return .coalesce (← ofTree? left) (← ofTree? right)
  | (.ternary, [⟨test, _⟩, ⟨.null, _⟩, ⟨otherwise, _⟩]) =>
      return .elvis (← ofTree? test) (← ofTree? otherwise)
  | (.ternary, [⟨test, _⟩, ⟨positive, _⟩, ⟨negative, _⟩]) =>
      return .choice (← ofTree? test) (← ofTree? positive) (← ofTree? negative)
  | (.call, [⟨function, _⟩, ⟨args, _⟩]) => return .call (← function.string?) (← ofArray? args)
  | (.isset, [⟨target, _⟩]) => return .isset (← ofTree? target)
  | (.empty, [⟨target, _⟩]) => return .empty (← ofTree? target)
  | _ => none
termination_by sizeOf tree

def ofArray? (tree : Tree) : Option (List Expr) :=
  match tree with
  | .array members => ofTrees? members
  | _ => none
termination_by sizeOf tree

def ofTrees? (trees : List Tree) : Option (List Expr) := do
  match trees with
  | [] => return []
  | tree :: rest => return (← ofTree? tree) :: (← ofTrees? rest)
termination_by sizeOf trees
end

end Expr

def optionalTree {α : Type} (toTree : α → Tree) : Option α → Tree
  | none => .null
  | some a => toTree a

def optional? {α : Type} (ofTree? : Tree → Option α) : Tree → Option (Option α)
  | .null => some none
  | tree => (ofTree? tree).map some

def list? {α : Type} (ofTree? : Tree → Option α) : Tree → Option (List α)
  | .array trees => trees.mapM ofTree?
  | _ => none

namespace Assignment

inductive Form where
  | set | add | sub | increment | decrement
deriving DecidableEq, Repr

def Form.name : Form → String
  | .set => "set"
  | .add => "add_assign"
  | .sub => "sub_assign"
  | .increment => "increment"
  | .decrement => "decrement"

def Form.fields : Form → List Field
  | .set => [⟨"name", false⟩, ⟨"value", false⟩]
  | .add => [⟨"name", false⟩, ⟨"value", false⟩]
  | .sub => [⟨"name", false⟩, ⟨"value", false⟩]
  | .increment => [⟨"name", false⟩]
  | .decrement => [⟨"name", false⟩]

def forms : Variant Form where
  tag := "kind"
  forms := [.set, .add, .sub, .increment, .decrement]
  name := Form.name
  fields := Form.fields

def toTree : Assignment → Tree
  | .set name value => forms.write .set [.string name, value.toTree]
  | .add name value => forms.write .add [.string name, value.toTree]
  | .sub name value => forms.write .sub [.string name, value.toTree]
  | .increment name => forms.write .increment [.string name]
  | .decrement name => forms.write .decrement [.string name]

def ofTree? (tree : Tree) : Option Assignment := do
  match ← forms.read? true tree with
  | (.set, [⟨name, _⟩, ⟨value, _⟩]) => return .set (← name.string?) (← Expr.ofTree? value)
  | (.add, [⟨name, _⟩, ⟨value, _⟩]) => return .add (← name.string?) (← Expr.ofTree? value)
  | (.sub, [⟨name, _⟩, ⟨value, _⟩]) => return .sub (← name.string?) (← Expr.ofTree? value)
  | (.increment, [⟨name, _⟩]) => return .increment (← name.string?)
  | (.decrement, [⟨name, _⟩]) => return .decrement (← name.string?)
  | _ => none

end Assignment

namespace EachHeader

def fields : List Field := [⟨"source", false⟩, ⟨"key", true⟩, ⟨"value", false⟩]

def toTree (header : EachHeader) : Tree :=
  .record fields [header.source.toTree, optionalTree Tree.string header.key, .string header.value]

def ofTree? (tree : Tree) : Option EachHeader := do
  match ← tree.record? fields with
  | [⟨source, _⟩, ⟨key, _⟩, ⟨value, _⟩] =>
      return ⟨← Expr.ofTree? source, ← optional? Tree.string? key, ← value.string?⟩
  | _ => none

end EachHeader

namespace ForHeader

def fields : List Field := [⟨"init", false⟩, ⟨"condition", true⟩, ⟨"step", false⟩]

def toTree (header : ForHeader) : Tree :=
  .record fields [.array (header.init.map Assignment.toTree),
    optionalTree Expr.toTree header.condition, .array (header.step.map Assignment.toTree)]

def ofTree? (tree : Tree) : Option ForHeader := do
  match ← tree.record? fields with
  | [⟨init, _⟩, ⟨condition, _⟩, ⟨step, _⟩] =>
      return ⟨← list? Assignment.ofTree? init, ← optional? Expr.ofTree? condition,
        ← list? Assignment.ofTree? step⟩
  | _ => none

end ForHeader

end Stencil
