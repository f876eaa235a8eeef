import Stencil.Expr.Cursor
import Stencil.Expr.Basic

set_option autoImplicit false

namespace Stencil

abbrev Parsed (α : Type) (c : Cursor) : Type := Except ParseError (α × c.Later)

inductive Level where
  | either | both | equality | comparison | sum | product
deriving DecidableEq, Repr

namespace Level

-- Loosest first.
def all : List Level := [.either, .both, .equality, .comparison, .sum, .product]

def ofSymbol? : Level → Symbol → Option BinaryOp
  | .either, .either => some .or
  | .both, .both => some .and
  | .equality, .equal => some .eq
  | .equality, .notEqual => some .notEq
  | .equality, .identical => some .identical
  | .equality, .notIdentical => some .notIdentical
  | .comparison, .less => some .lt
  | .comparison, .atMost => some .le
  | .comparison, .greater => some .gt
  | .comparison, .atLeast => some .ge
  | .sum, .plus => some .add
  | .sum, .minus => some .sub
  | .product, .star => some .mul
  | .product, .slash => some .div
  | .product, .percent => some .rem
  | _, _ => none

def ofToken? (level : Level) : Token → Option BinaryOp
  | .symbol s => level.ofSymbol? s
  | token =>
      if level = .either && Cursor.isKeyword "or" token then some .or
      else if level = .both && Cursor.isKeyword "and" token then some .and
      else none

end Level

def unaryOp? : Token → Option UnaryOp
  | .symbol .bang => some .not
  | .symbol .minus => some .neg
  | token => if Cursor.isKeyword "not" token then some .not else none

def isSelection : Token → Option Unit
  | .symbol .dot => some ()
  | .symbol .arrow => some ()
  | _ => none

def constant (name : String) (offset : Nat) : Except ParseError Expr :=
  let lowered := Text.lowerAscii name
  if lowered = "true" then .ok (.literal (.bool true))
  else if lowered = "false" then .ok (.literal (.bool false))
  else if lowered = "null" then .ok (.literal .null)
  else .error ⟨.unknownIdentifier name, offset⟩

-- A call; two names are questions about their argument and not functions on its value.
def callOf (name : String) (offset : Nat) (args : List Expr) : Except ParseError Expr :=
  let lowered := Text.lowerAscii name
  if lowered = "isset" || lowered = "empty" then
    match args with
    | [target] => .ok (if lowered = "isset" then .isset target else .empty target)
    | _ => .error ⟨.oneArgument lowered, offset⟩
  else .ok (.call name args)

mutual
def expression (c : Cursor) : Parsed Expr c := do
  let ⟨inner, _⟩ ← c.descend
  let (e, ⟨next, _⟩) ← ternary inner
  return (e, ⟨next.ascend 1, by rw [Cursor.left_ascend]; omega⟩)
termination_by 16 * c.left + 13
decreasing_by omega

def ternary (c : Cursor) : Parsed Expr c := do
  let (test, ⟨afterTest, _⟩) ← coalesce c
  match afterTest.eat .question with
  | none => return (test, ⟨afterTest, by omega⟩)
  | some ⟨branches, _⟩ =>
      match branches.eat .colon with
      | some ⟨afterColon, _⟩ =>
          let (otherwise, ⟨next, _⟩) ← expression afterColon
          return (.elvis test otherwise, ⟨next, by omega⟩)
      | none =>
          let (positive, ⟨afterPositive, _⟩) ← expression branches
          let ⟨afterColon, _⟩ ← afterPositive.expect .colon .colon
          let (negative, ⟨next, _⟩) ← expression afterColon
          return (.choice test positive negative, ⟨next, by omega⟩)
termination_by 16 * c.left + 12
decreasing_by all_goals omega

def coalesce (c : Cursor) : Parsed Expr c := do
  let (left, ⟨afterLeft, _⟩) ← chain Level.all c
  match afterLeft.eat .coalesce with
  | none => return (left, ⟨afterLeft, by omega⟩)
  | some ⟨afterMark, _⟩ =>
      let ⟨inner, _⟩ ← afterMark.descend
      let (right, ⟨next, _⟩) ← coalesce inner
      return (.coalesce left right, ⟨next.ascend 1, by rw [Cursor.left_ascend]; omega⟩)
termination_by 16 * c.left + 11
decreasing_by all_goals first | omega | simp [Level.all]

def chain (levels : List Level) (c : Cursor) : Parsed Expr c := do
  match levels with
  | [] => unary c
  | level :: tighter =>
      let (first, ⟨afterFirst, _⟩) ← chain tighter c
      let (e, ⟨next, _⟩) ← links level tighter 0 first afterFirst
      return (e, ⟨next, by omega⟩)
termination_by 16 * c.left + 3 + levels.length
decreasing_by all_goals simp only [List.length_cons, List.length_nil]; omega

def links (level : Level) (tighter : List Level) (count : Nat) (left : Expr) (c : Cursor) :
    Except ParseError (Expr × c.NotEarlier) := do
  match c.pass level.ofToken? with
  | none => return (left, ⟨c.ascend count, Nat.le_of_eq (c.left_ascend count)⟩)
  | some (op, ⟨afterOp, _⟩) =>
      let ⟨inner, _⟩ ← afterOp.descend
      let (right, ⟨afterRight, _⟩) ← chain tighter inner
      let (e, ⟨next, _⟩) ← links level tighter (count + 1) (.binary op left right) afterRight
      return (e, ⟨next, by omega⟩)
termination_by 16 * c.left + 3 + tighter.length
decreasing_by all_goals omega

def unary (c : Cursor) : Parsed Expr c := do
  match c.pass unaryOp? with
  | none => access c
  | some (op, ⟨afterOp, _⟩) =>
      let ⟨inner, _⟩ ← afterOp.descend
      let (operand, ⟨next, _⟩) ← unary inner
      return (.unary op operand, ⟨next.ascend 1, by rw [Cursor.left_ascend]; omega⟩)
termination_by 16 * c.left + 2
decreasing_by all_goals omega

def access (c : Cursor) : Parsed Expr c := do
  let (target, ⟨afterTarget, _⟩) ← primary c
  let (e, ⟨next, _⟩) ← selections 0 target afterTarget
  return (e, ⟨next, by omega⟩)
termination_by 16 * c.left + 1
decreasing_by all_goals omega

def selections (count : Nat) (target : Expr) (c : Cursor) :
    Except ParseError (Expr × c.NotEarlier) := do
  match c.pass isSelection with
  | some (_, ⟨afterMark, _⟩) =>
      let ⟨inner, _⟩ ← afterMark.descend
      let (field, ⟨afterField, _⟩) ← inner.fieldName
      let (e, ⟨next, _⟩) ← selections (count + 1) (.member target field) afterField
      return (e, ⟨next, by omega⟩)
  | none =>
      match c.eat .openBracket with
      | some ⟨afterMark, _⟩ =>
          let ⟨inner, _⟩ ← afterMark.descend
          let (key, ⟨afterKey, _⟩) ← expression inner
          let ⟨afterBracket, _⟩ ← afterKey.expect .closeBracket .closeBracket
          let (e, ⟨next, _⟩) ← selections (count + 1) (.index target key) afterBracket
          return (e, ⟨next, by omega⟩)
      | none => return (target, ⟨c.ascend count, Nat.le_of_eq (c.left_ascend count)⟩)
termination_by 16 * c.left
decreasing_by all_goals omega

def primary (c : Cursor) : Parsed Expr c := do
  match c.next? with
  | none => .error (c.fail (.unexpected none))
  | some (found, ⟨after, _⟩) =>
      match found.token with
      | .int n => return (.literal (Value.ofNat n), ⟨after, by omega⟩)
      | .float x =>
          match Number.ofFloat? x with
          | some n => return (.literal (.number n), ⟨after, by omega⟩)
          | none => .error ⟨.notFinite, found.offset⟩
      | .text s => return (.literal (.string s), ⟨after, by omega⟩)
      | .variableName name => return (.var name, ⟨after, by omega⟩)
      | .symbol .openParen =>
          let (e, ⟨afterInner, _⟩) ← expression after
          let ⟨next, _⟩ ← afterInner.expect .closeParen .closeParen
          return (e, ⟨next, by omega⟩)
      | .symbol .openBracket =>
          let (members, ⟨next, _⟩) ← items .closeBracket .commaOrBracket after
          return (.array members, ⟨next, by omega⟩)
      | .word name =>
          match after.eat .openParen with
          | some ⟨inner, _⟩ =>
              let (args, ⟨next, _⟩) ← items .closeParen .commaOrParen inner
              let e ← callOf name found.offset args
              return (e, ⟨next, by omega⟩)
          | none =>
              let e ← constant name found.offset
              return (e, ⟨after, by omega⟩)
      | other => .error ⟨.unexpected (some other), found.offset⟩
termination_by 16 * c.left
decreasing_by all_goals omega

def items (close : Symbol) (what : Expectation) (c : Cursor) : Parsed (List Expr) c := do
  match c.eat close with
  | some next => return ([], next)
  | none =>
      let (first, ⟨afterFirst, _⟩) ← expression c
      let (rest, ⟨next, _⟩) ← moreItems close what afterFirst
      return (first :: rest, ⟨next, by omega⟩)
termination_by 16 * c.left + 14
decreasing_by all_goals omega

def moreItems (close : Symbol) (what : Expectation) (c : Cursor) : Parsed (List Expr) c := do
  match c.eat close with
  | some next => return ([], next)
  | none =>
      let ⟨afterComma, _⟩ ← c.expect .comma what
      let (item, ⟨afterItem, _⟩) ← expression afterComma
      let (rest, ⟨next, _⟩) ← moreItems close what afterItem
      return (item :: rest, ⟨next, by omega⟩)
termination_by 16 * c.left
decreasing_by all_goals omega
end

end Stencil
