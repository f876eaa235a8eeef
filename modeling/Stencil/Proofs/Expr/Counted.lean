import Stencil.Expr.Parser

set_option autoImplicit false

namespace Stencil.Counted

structure Entry where
  token : Option Token
  offset : Nat

-- To read where no token is and to close a level that is not open are faults of their own.
inductive Halt where
  | refused (error : ParseError)
  | outOfRange
  | underflow
  | unfinished

structure Counters where
  position : Nat
  depth : Nat
  peak : Nat

def Counters.deeper (s : Counters) : Counters :=
  { s with depth := s.depth + 1, peak := max s.peak (s.depth + 1) }

abbrev Run (α : Type) : Type := EStateM Halt Counters α

def isSymbol (symbol : Symbol) : Token → Option Unit
  | .symbol s => if s = symbol then some () else none
  | _ => none

variable (entries : List Entry)

section Steps

def entry : Run Entry := fun s =>
  match entries[s.position]? with
  | some found => .ok found s
  | none => .error .outOfRange s

def fail {α : Type} (fault : ParseFault) : Run α := do
  throw (.refused ⟨fault, (← entry entries).offset⟩)

-- The end of the text is never passed.
def advance : Run Entry := do
  let found ← entry entries
  if found.token.isSome then modify fun s => { s with position := s.position + 1 }
  return found

def pass {α : Type} (test : Token → Option α) : Run (Option α) := do
  match (← entry entries).token.bind test with
  | some a =>
      let _ ← advance entries
      return some a
  | none => return none

def eat (symbol : Symbol) : Run Bool := do
  return (← pass entries (isSymbol symbol)).isSome

def expect (symbol : Symbol) (what : Expectation) : Run Unit := do
  if ← eat entries symbol then return () else fail entries (.expected what)

def descend : Run Unit := do
  modify Counters.deeper
  if greatestNesting < (← get).depth then fail entries .tooDeep

def ascend (levels : Nat) : Run Unit := fun s =>
  if s.depth < levels then .error .underflow s else .ok () { s with depth := s.depth - levels }

def fieldName : Run String := do
  match (← advance entries).token with
  | some (.word name) => return name
  | some (.int n) => return toString n
  | other => fail entries (.expectedField other)

def lift {α : Type} : Except ParseError α → Run α
  | .ok a => pure a
  | .error error => throw (.refused error)

end Steps

-- `fuel` bounds how deep calls stand in one another. There is always enough for the tokens that are left.
mutual
def expression : Nat → Run Expr
  | 0 => throw .unfinished
  | fuel + 1 => do
      descend entries
      let e ← ternary fuel
      ascend 1
      return e

def ternary : Nat → Run Expr
  | 0 => throw .unfinished
  | fuel + 1 => do
      let test ← coalesce fuel
      if ← eat entries .question then
        if ← eat entries .colon then
          let otherwise ← expression fuel
          return .elvis test otherwise
        else
          let positive ← expression fuel
          expect entries .colon .colon
          let negative ← expression fuel
          return .choice test positive negative
      else return test

def coalesce : Nat → Run Expr
  | 0 => throw .unfinished
  | fuel + 1 => do
      let left ← chain Level.all fuel
      if ← eat entries .coalesce then
        descend entries
        let right ← coalesce fuel
        ascend 1
        return .coalesce left right
      else return left

def chain (levels : List Level) : Nat → Run Expr
  | 0 => throw .unfinished
  | fuel + 1 =>
      match levels with
      | [] => unary fuel
      | level :: tighter => do
          let first ← chain tighter fuel
          links level tighter 0 first fuel

def links (level : Level) (tighter : List Level) (count : Nat) (left : Expr) : Nat → Run Expr
  | 0 => throw .unfinished
  | fuel + 1 => do
      match ← pass entries level.ofToken? with
      | none =>
          ascend count
          return left
      | some op =>
          descend entries
          let right ← chain tighter fuel
          links level tighter (count + 1) (.binary op left right) fuel

def unary : Nat → Run Expr
  | 0 => throw .unfinished
  | fuel + 1 => do
      match ← pass entries unaryOp? with
      | none => access fuel
      | some op =>
          descend entries
          let operand ← unary fuel
          ascend 1
          return .unary op operand

def access : Nat → Run Expr
  | 0 => throw .unfinished
  | fuel + 1 => do
      let target ← primary fuel
      selections 0 target fuel

def selections (count : Nat) (target : Expr) : Nat → Run Expr
  | 0 => throw .unfinished
  | fuel + 1 => do
      match ← pass entries isSelection with
      | some () =>
          descend entries
          let field ← fieldName entries
          selections (count + 1) (.member target field) fuel
      | none =>
          if ← eat entries .openBracket then
            descend entries
            let key ← expression fuel
            expect entries .closeBracket .closeBracket
            selections (count + 1) (.index target key) fuel
          else
            ascend count
            return target

def primary : Nat → Run Expr
  | 0 => throw .unfinished
  | fuel + 1 => do
      let offset := (← entry entries).offset
      match (← advance entries).token with
      | some (.int n) => return .literal (Value.ofNat n)
      | some (.float x) =>
          match Number.ofFloat? x with
          | some n => return .literal (.number n)
          | none => throw (.refused ⟨.notFinite, offset⟩)
      | some (.text s) => return .literal (.string s)
      | some (.variableName name) => return .var name
      | some (.symbol .openParen) =>
          let e ← expression fuel
          expect entries .closeParen .closeParen
          return e
      | some (.symbol .openBracket) =>
          let members ← items .closeBracket .commaOrBracket fuel
          return .array members
      | some (.word name) =>
          if ← eat entries .openParen then
            let args ← items .closeParen .commaOrParen fuel
            lift (callOf name offset args)
          else lift (constant name offset)
      | other => throw (.refused ⟨.unexpected other, offset⟩)

def items (close : Symbol) (what : Expectation) : Nat → Run (List Expr)
  | 0 => throw .unfinished
  | fuel + 1 => do
      if ← eat entries close then return []
      else
        let first ← expression fuel
        let rest ← moreItems close what fuel
        return first :: rest

def moreItems (close : Symbol) (what : Expectation) : Nat → Run (List Expr)
  | 0 => throw .unfinished
  | fuel + 1 => do
      if ← eat entries close then return []
      else
        expect entries .comma what
        let item ← expression fuel
        let rest ← moreItems close what fuel
        return item :: rest
end

end Stencil.Counted
