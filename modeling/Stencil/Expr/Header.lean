import Stencil.Expr.Lexer
import Stencil.Expr.Parser

set_option autoImplicit false

namespace Stencil

def cursor (text : List Char) : Except ParseError Cursor := do
  return .start (← tokenize text) (Text.byteSize text)

def Expr.single (c : Cursor) : Except ParseError Expr := do
  let (e, ⟨last, _⟩) ← expression c
  last.expectEnd
  return e

def Expr.parse (text : List Char) : Except ParseError Expr := do Expr.single (← cursor text)

def moreArguments (c : Cursor) : Except ParseError (List Expr × c.NotEarlier) := do
  match c.eat .comma with
  | none => return ([], c.stay)
  | some comma =>
      let (e, item) ← expression comma.val
      let (rest, last) ← moreArguments item.val
      return (e :: rest, ((comma.later item).on last).weaken)
termination_by c.left
decreasing_by exact (comma.later item).property

def Expr.several (c : Cursor) : Except ParseError (List Expr) := do
  if c.rest.isEmpty then return []
  let (first, ⟨afterFirst, _⟩) ← expression c
  let (rest, ⟨last, _⟩) ← moreArguments afterFirst
  last.expectEnd
  return first :: rest

def Expr.parseAll (text : List Char) : Except ParseError (List Expr) := do Expr.several (← cursor text)

def EachHeader.read (c : Cursor) : Except ParseError EachHeader := do
  let (source, ⟨afterSource, _⟩) ← expression c
  match afterSource.eatKeyword "as" with
  | none => .error (afterSource.fail (.expected .asKeyword))
  | some ⟨names, _⟩ =>
      let (first, ⟨afterFirst, _⟩) ← names.variableName
      match afterFirst.eat .fatArrow with
      | none =>
          afterFirst.expectEnd
          return ⟨source, none, first⟩
      | some ⟨afterArrow, _⟩ =>
          let (second, ⟨last, _⟩) ← afterArrow.variableName
          last.expectEnd
          return ⟨source, some first, second⟩

def EachHeader.parse (text : List Char) : Except ParseError EachHeader := do EachHeader.read (← cursor text)

def Assignment.behind (name : String) (c : Cursor) : Except ParseError (Assignment × c.Later) := do
  match c.next? with
  | none => .error ⟨.expectedAssignment name none, c.last⟩
  | some (found, after) =>
      match found.token with
      | .symbol .assign => withValue after (.set name)
      | .symbol .plusAssign => withValue after (.add name)
      | .symbol .minusAssign => withValue after (.sub name)
      | .symbol .increment => return (.increment name, after)
      | .symbol .decrement => return (.decrement name, after)
      | other => .error ⟨.expectedAssignment name (some other), found.offset⟩
where
  withValue {c : Cursor} (after : c.Later) (assign : Expr → Assignment) :
      Except ParseError (Assignment × c.Later) := do
    let (value, next) ← expression after.val
    return (assign value, after.later next)

def Assignment.parse (c : Cursor) : Except ParseError (Assignment × c.Later) := do
  match c.eat .increment with
  | some after =>
      let (name, next) ← after.val.variableName
      return (.increment name, after.later next)
  | none =>
      match c.eat .decrement with
      | some after =>
          let (name, next) ← after.val.variableName
          return (.decrement name, after.later next)
      | none =>
          let (name, after) ← c.variableName
          let (assignment, next) ← Assignment.behind name after.val
          return (assignment, after.later next)

def assignments (c : Cursor) : Except ParseError (List Assignment × c.Later) := do
  let (first, after) ← Assignment.parse c
  match after.val.eat .comma with
  | none => return ([first], after)
  | some comma =>
      let (rest, next) ← assignments comma.val
      return (first :: rest, after.later (comma.later next))
termination_by c.left
decreasing_by exact (after.later comma).property

def initial (c : Cursor) : Except ParseError (List Assignment × Cursor) := do
  if (c.eat .semicolon).isSome then return ([], c)
  let (list, ⟨next, _⟩) ← assignments c
  return (list, next)

def loopTest (c : Cursor) : Except ParseError (Option Expr × Cursor) := do
  if (c.eat .semicolon).isSome then return (none, c)
  let (e, ⟨next, _⟩) ← expression c
  return (some e, next)

def final (c : Cursor) : Except ParseError (List Assignment × Cursor) := do
  if c.rest.isEmpty then return ([], c)
  let (list, ⟨next, _⟩) ← assignments c
  return (list, next)

def ForHeader.read (c : Cursor) : Except ParseError ForHeader := do
  let (init, afterInit) ← initial c
  let ⟨second, _⟩ ← afterInit.expect .semicolon .afterInit
  let (test, afterTest) ← loopTest second
  let ⟨third, _⟩ ← afterTest.expect .semicolon .afterCondition
  let (step, last) ← final third
  last.expectEnd
  return ⟨init, test, step⟩

def ForHeader.parse (text : List Char) : Except ParseError ForHeader := do ForHeader.read (← cursor text)

end Stencil
