import Stencil.Json.Token

set_option autoImplicit false

namespace Stencil.Json

-- Items and members come last first while their container is open.
inductive Open where
  | array (items : List Tree)
  | object (members : List (Option String × Tree)) (name : Option String)

inductive Expected where
  | value (first : Bool)
  | name (members : List (Option String × Tree)) (first : Bool)
  | colon (members : List (Option String × Tree)) (name : Option String)
  | more (tree : Tree)

-- The containers that are open stand on a stack of their own, so that no nesting is too deep.
structure State where
  stack : List Open
  expected : Expected

def named? : List (Option String × Tree) → Option (List (String × Tree))
  | [] => some []
  | (some name, member) :: rest => (named? rest).map ((name, member) :: ·)
  | (none, _) :: _ => none

def closeObject (members : List (Option String × Tree)) : Tree :=
  ((named? members.reverse).map Tree.object).getD .unreadable

def State.step (state : State) (token : Token) : Option State :=
  match state.expected, token with
  | .value _, .scalar tree => some { state with expected := .more tree }
  | .value _, .text content =>
      some { state with expected := .more ((content.map Tree.string).getD .unreadable) }
  | .value first, .mark c =>
      if c = '[' then some ⟨.array [] :: state.stack, .value true⟩
      else if c = '\x7b' then some { state with expected := .name [] true }
      else if c = ']' && first then
        match state.stack with
        | .array _ :: rest => some ⟨rest, .more (.array [])⟩
        | _ => none
      else none
  | .name members _, .text content => some { state with expected := .colon members content }
  | .name members first, .mark c =>
      if c = '\x7d' && first then some { state with expected := .more (closeObject members) } else none
  | .colon members name, .mark c =>
      if c = ':' then some ⟨.object members name :: state.stack, .value false⟩ else none
  | .more tree, .mark c =>
      match state.stack with
      | .array items :: rest =>
          if c = ',' then some ⟨.array (tree :: items) :: rest, .value false⟩
          else if c = ']' then some ⟨rest, .more (.array (tree :: items).reverse)⟩
          else none
      | .object members name :: rest =>
          if c = ',' then some ⟨rest, .name ((name, tree) :: members) false⟩
          else if c = '\x7d' then some ⟨rest, .more (closeObject ((name, tree) :: members))⟩
          else none
      | [] => none
  | _, _ => none

def State.run (state : State) : List Token → Option State
  | [] => some state
  | token :: rest =>
      match state.step token with
      | none => none
      | some next => next.run rest

def Tree.ofTokens? (tokens : List Token) : Option Tree :=
  match State.run ⟨[], .value false⟩ tokens with
  | some ⟨[], .more tree⟩ => some tree
  | _ => none

def Tree.ofText? (text : String) : Option Tree := tokens? text.toList >>= Tree.ofTokens?

def greatestDepth : Nat := 127

end Stencil.Json

namespace Stencil.Value

def ofJson? (text : String) : Option Value :=
  match Json.Tree.ofText? text with
  | some tree => if tree.depth ≤ Json.greatestDepth then tree.toValue? else none
  | none => none

end Stencil.Value
