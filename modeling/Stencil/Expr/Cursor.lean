import Stencil.Expr.Token
import Stencil.Text.Case

set_option autoImplicit false

namespace Stencil

def greatestNesting : Nat := 128

-- `last` is where the token passed last starts, and `finish` where the text ends.
structure Cursor where
  rest : List Located
  last : Nat
  finish : Nat
  depth : Nat

namespace Cursor

def start (tokens : List Located) (finish : Nat) : Cursor := ⟨tokens, finish, finish, 0⟩

def left (c : Cursor) : Nat := c.rest.length

abbrev Later (c : Cursor) : Type := { next : Cursor // next.left < c.left }

abbrev NotEarlier (c : Cursor) : Type := { next : Cursor // next.left ≤ c.left }

abbrev Here (c : Cursor) : Type := { next : Cursor // next.left = c.left }

def stay (c : Cursor) : c.NotEarlier := ⟨c, Nat.le_refl c.left⟩

namespace Later

variable {c : Cursor}

def weaken (step : c.Later) : c.NotEarlier := ⟨step.val, Nat.le_of_lt step.property⟩

def later (step : c.Later) (next : step.val.Later) : c.Later :=
  ⟨next.val, Nat.lt_trans next.property step.property⟩

def on (step : c.Later) (next : step.val.NotEarlier) : c.Later :=
  ⟨next.val, Nat.lt_of_le_of_lt next.property step.property⟩

end Later

def peek (c : Cursor) : Option Token := c.rest.head?.map Located.token

def offset (c : Cursor) : Nat := (c.rest.head?.map Located.offset).getD c.finish

def fail (c : Cursor) (fault : ParseFault) : ParseError := ⟨fault, c.offset⟩

def next? : (c : Cursor) → Option (Located × c.Later)
  | ⟨[], _, _, _⟩ => none
  | ⟨token :: rest, _, finish, depth⟩ =>
      some (token, ⟨⟨rest, token.offset, finish, depth⟩, by simp [left]⟩)

def pass {α : Type} (c : Cursor) (test : Token → Option α) : Option (α × c.Later) :=
  match c.next? with
  | some (found, next) => (test found.token).map fun a => (a, next)
  | none => none

def eat (c : Cursor) (symbol : Symbol) : Option c.Later :=
  (c.pass fun
    | .symbol s => if s = symbol then some () else none
    | _ => none).map Prod.snd

def isKeyword (keyword : String) : Token → Bool
  | .word name => Text.lowerAscii name == keyword
  | _ => false

def eatKeyword (c : Cursor) (keyword : String) : Option c.Later :=
  (c.pass fun token => if isKeyword keyword token then some () else none).map Prod.snd

def expect (c : Cursor) (symbol : Symbol) (what : Expectation) : Except ParseError c.Later :=
  match c.eat symbol with
  | some next => .ok next
  | none => .error (c.fail (.expected what))

def expectEnd (c : Cursor) : Except ParseError Unit :=
  if c.rest.isEmpty then .ok () else .error (c.fail (.unexpected c.peek))

def descend (c : Cursor) : Except ParseError c.Here :=
  if greatestNesting < c.depth + 1 then .error (c.fail .tooDeep)
  else .ok ⟨⟨c.rest, c.last, c.finish, c.depth + 1⟩, rfl⟩

def ascend (c : Cursor) (levels : Nat) : Cursor := { c with depth := c.depth - levels }

theorem left_ascend (c : Cursor) (levels : Nat) : (c.ascend levels).left = c.left := rfl

-- At the end of the text the place of the token before it is reported.
def variableName (c : Cursor) : Except ParseError (String × c.Later) :=
  match c.next? with
  | none => .error ⟨.expectedVariable none, c.last⟩
  | some (found, next) =>
      match found.token with
      | .variableName name => .ok (name, next)
      | other => .error ⟨.expectedVariable (some other), found.offset⟩

-- The name behind a dot or an arrow, which may be a number. What stands there instead has been
-- passed when it is reported.
def fieldName (c : Cursor) : Except ParseError (String × c.Later) :=
  match c.next? with
  | none => .error (c.fail (.expectedField none))
  | some (found, next) =>
      match found.token with
      | .word name => .ok (name, next)
      | .int n => .ok (toString n, next)
      | other => .error (next.val.fail (.expectedField (some other)))

end Cursor

end Stencil
