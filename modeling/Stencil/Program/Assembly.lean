import Stencil.Expr.Header
import Stencil.Program.Node
import Stencil.Template.Fault
import Stencil.Template.Piece
import Stencil.Text.Blank

set_option autoImplicit false

namespace Stencil

open Template

def greatestBlockDepth : Nat := 64

inductive LoopHead where
  | counted (header : ForHeader)
  | each (header : EachHeader)
  | whilst (test : Expr)

def LoopHead.kind : LoopHead → LoopKind
  | .counted _ => .counted
  | .each _ => .each
  | .whilst _ => .whilst

def LoopHead.node (head : LoopHead) (body : List Node) (line : Nat) : Node :=
  match head with
  | .counted header => .counted header body line
  | .each header => .each header body line
  | .whilst test => .whilst test body line

-- The body is that of the branch being filled, whose test is absent in the last branch. Bodies and
-- branches have the latest first.
inductive Open where
  | conditional (kind : ConditionalKind) (branches : List (Expr × List Node)) (test : Option Expr)
      (body : List Node) (line : Nat)
  | loop (head : LoopHead) (body : List Node) (line : Nat)

namespace Open

def opener : Open → Directive
  | .conditional kind _ _ _ _ => kind.opener
  | .loop head _ _ => head.kind.opener

def line : Open → Nat
  | .conditional _ _ _ _ line => line
  | .loop _ _ line => line

end Open

-- Adds a node to a body, the latest first. A text joins the text before it.
def addNode (node : Node) (body : List Node) : List Node :=
  match node, body with
  | .text content, .text before :: rest => .text (before ++ content) :: rest
  | node, body => node :: body

-- The innermost open block comes first, and the nodes outside of all have the latest first.
structure Assembly where
  root : List Node
  blocks : List Open

abbrev Assembled := Except FaultKind

def malformed {α : Type} (what : Malformed) : Assembled α := .error (.malformed what)

def insideOf (d : Directive) (args : Option (List Char)) : Assembled (List Char) :=
  match d.takesArguments, args.map unwrap with
  | true, some inside =>
      if (Text.trim inside).isEmpty then malformed (.needsArguments d) else .ok inside
  | true, none => malformed (.needsArguments d)
  | false, some _ => malformed (.takesNoArguments d)
  | false, none => .ok []
where
  unwrap (args : List Char) : List Char :=
    let trimmed := Text.trim args
    match trimmed with
    | '(' :: rest => if rest.getLast? = some ')' then rest.dropLast else trimmed
    | _ => trimmed

def inPlace {α : Type} (place : Place) (result : Except ParseError α) : Assembled α :=
  result.mapError (FaultKind.expression place)

def oneArgument (d : Directive) (inside : List Char) : Assembled Expr := do
  match ← inPlace (.directive d) (Expr.parseAll inside) with
  | [e] => return e
  | args => malformed (.wrongCount d 1 args.length)

def oneOrTwoArguments (d : Directive) (inside : List Char) : Assembled (Expr × Option Expr) := do
  match ← inPlace (.directive d) (Expr.parseAll inside) with
  | [e] => return (e, none)
  | [first, second] => return (first, some second)
  | _ => malformed (.notOneOrTwo d)

def loopHead (d : Directive) (kind : LoopKind) (inside : List Char) : Assembled LoopHead :=
  inPlace (.directive d) <|
    match kind with
    | .counted => (ForHeader.parse inside).map .counted
    | .each => (EachHeader.parse inside).map .each
    | .whilst => (Expr.parse inside).map .whilst

namespace Assembly

def empty : Assembly := ⟨[], []⟩

def push (node : Node) (state : Assembly) : Assembly :=
  match state.blocks with
  | [] => { state with root := addNode node state.root }
  | .conditional kind branches test body line :: outer =>
      { state with blocks := .conditional kind branches test (addNode node body) line :: outer }
  | .loop head body line :: outer =>
      { state with blocks := .loop head (addNode node body) line :: outer }

def openBlock (block : Open) (state : Assembly) : Assembled Assembly :=
  if greatestBlockDepth ≤ state.blocks.length then malformed (.nestedTooDeeply greatestBlockDepth)
  else .ok { state with blocks := block :: state.blocks }

def nextBranch (test : Expr) (state : Assembly) : Assembled Assembly :=
  match state.blocks with
  | .conditional .affirmed branches (some done) body line :: outer =>
      let block := Open.conditional .affirmed ((done, body.reverse) :: branches) (some test) [] line
      .ok { state with blocks := block :: outer }
  | _ => malformed .branchOutsideIf

def lastBranch (state : Assembly) : Assembled Assembly :=
  match state.blocks with
  | .conditional kind branches (some done) body line :: outer =>
      let block := Open.conditional kind ((done, body.reverse) :: branches) none [] line
      .ok { state with blocks := block :: outer }
  | _ => malformed .lastBranchOutsideConditional

def conditionalNode (branches : List (Expr × List Node)) (test : Option Expr) (body : List Node)
    (line : Nat) : Node :=
  match test with
  | some test => .conditional ((test, body.reverse) :: branches).reverse none line
  | none => .conditional branches.reverse (some body.reverse) line

def closeConditional (d : Directive) (state : Assembly) : Assembled Assembly :=
  match state.blocks with
  | .conditional kind branches test body line :: outer =>
      if kind.closer = d then
        .ok (push (conditionalNode branches test body line) { state with blocks := outer })
      else malformed (.mismatch d kind.closer line)
  | _ => malformed (.nothingToClose d)

def closeLoop (d : Directive) (state : Assembly) : Assembled Assembly :=
  match state.blocks with
  | .loop head body line :: outer =>
      if head.kind.closer = d then
        .ok (push (head.node body.reverse line) { state with blocks := outer })
      else malformed (.mismatch d head.kind.closer line)
  | _ => malformed (.nothingToClose d)

def directive (d : Directive) (args : Option (List Char)) (line : Nat) (state : Assembly) :
    Assembled Assembly := do
  let inside ← insideOf d args
  match d.role with
  | .openConditional kind =>
      let test ← inPlace (.directive d) (Expr.parse inside)
      let test := match kind with
        | .affirmed => test
        | .negated => test.negate
      state.openBlock (.conditional kind [] (some test) [] line)
  | .nextBranch => state.nextBranch (← inPlace (.directive d) (Expr.parse inside))
  | .lastBranch => state.lastBranch
  | .closeConditional => state.closeConditional d
  | .openLoop kind => state.openBlock (.loop (← loopHead d kind inside) [] line)
  | .closeLoop _ => state.closeLoop d
  | .extend => return state.push (.extend (← oneArgument d inside) line)
  | .insert => return state.push (.insert (← oneArgument d inside) line)
  | .yield =>
      let (block, default) ← oneOrTwoArguments d inside
      return state.push (.yield block default line)
  | .openSection =>
      let (block, inline) ← oneOrTwoArguments d inside
      return state.push (.openSection block inline line)
  | .closeSection mode => return state.push (.closeSection mode line)

def add (piece : Piece) (state : Assembly) : Except Fault Assembly :=
  match piece with
  | .text content _ => .ok (state.push (.text (String.ofList content)))
  | .comment content _ => .ok (state.push (.comment (String.ofList content)))
  | .echo source expression line =>
      match Expr.parse expression with
      | .ok e => .ok (state.push (.echo e line))
      | .error error => .error ⟨.expression (.echo source) error, line⟩
  | .directive d args line => (state.directive d args line).mapError fun kind => ⟨kind, line⟩

def addAll (pieces : List Piece) (state : Assembly) : Except Fault Assembly :=
  match pieces with
  | [] => .ok state
  | piece :: rest =>
      match state.add piece with
      | .ok next => next.addAll rest
      | .error fault => .error fault

def finish (state : Assembly) : Except Fault (List Node) :=
  match state.blocks with
  | [] => .ok state.root.reverse
  | block :: _ => .error ⟨.malformed (.neverClosed block.opener), block.line⟩

end Assembly

def Program.assemble (template : String) (pieces : List Piece) : Except Fault Program := do
  let state ← Assembly.empty.addAll pieces
  return ⟨currentFormat, template, ← state.finish⟩

end Stencil
