import Stencil.Proofs.Program.Assembly
import Stencil.Proofs.Template.Pieces

set_option autoImplicit false

namespace Stencil

open Template

inductive Leaf where
  | text (content : String)
  | comment (content : String)
  | echo (expression : Expr)
  | extend (template : Expr)
  | insert (template : Expr)
  | yield (block : Expr) (default : Option Expr)
  | openSection (block : Expr) (inline : Option Expr)
  | closeSection (mode : EndMode)

inductive Mark where
  | leaf (leaf : Leaf)
  | openConditional (kind : ConditionalKind) (test : Expr)
  | nextBranch (test : Expr)
  | lastBranch
  | closeConditional (kind : ConditionalKind)
  | openLoop (head : LoopHead)
  | closeLoop (kind : LoopKind)

def Leaf.node (line : Nat) : Leaf → Node
  | .text content => .text content
  | .comment content => .comment content
  | .echo expression => .echo expression line
  | .extend template => .extend template line
  | .insert template => .insert template line
  | .yield block default => .yield block default line
  | .openSection block inline => .openSection block inline line
  | .closeSection mode => .closeSection mode line

def Directive.mark (d : Directive) (args : Option (List Char)) : Assembled Mark := do
  let inside ← insideOf d args
  match d.role with
  | .openConditional kind => return .openConditional kind (← inPlace (.directive d) (Expr.parse inside))
  | .nextBranch => return .nextBranch (← inPlace (.directive d) (Expr.parse inside))
  | .lastBranch => return .lastBranch
  | .closeConditional => return .closeConditional (if d = .closeUnless then .negated else .affirmed)
  | .openLoop kind => return .openLoop (← loopHead d kind inside)
  | .closeLoop kind => return .closeLoop kind
  | .extend => return .leaf (.extend (← oneArgument d inside))
  | .insert => return .leaf (.insert (← oneArgument d inside))
  | .yield =>
      let (block, default) ← oneOrTwoArguments d inside
      return .leaf (.yield block default)
  | .openSection =>
      let (block, inline) ← oneOrTwoArguments d inside
      return .leaf (.openSection block inline)
  | .closeSection mode => return .leaf (.closeSection mode)

def Template.Piece.mark : Piece → Except Fault Mark
  | .text content _ => .ok (.leaf (.text (String.ofList content)))
  | .comment content _ => .ok (.leaf (.comment (String.ofList content)))
  | .echo source expression line =>
      match Expr.parse expression with
      | .ok e => .ok (.leaf (.echo e))
      | .error error => .error ⟨.expression (.echo source) error, line⟩
  | .directive d args line => (d.mark args).mapError fun kind => ⟨kind, line⟩

def ConditionalKind.test (kind : ConditionalKind) (test : Expr) : Expr :=
  match kind with
  | .affirmed => test
  | .negated => test.negate

def Assembly.take (mark : Mark) (line : Nat) (state : Assembly) : Assembled Assembly :=
  match mark with
  | .leaf leaf => .ok (state.push (leaf.node line))
  | .openConditional kind test => state.openBlock (.conditional kind [] (some (kind.test test)) [] line)
  | .nextBranch test => state.nextBranch test
  | .lastBranch => state.lastBranch
  | .closeConditional kind => state.closeConditional kind.closer
  | .openLoop head => state.openBlock (.loop head [] line)
  | .closeLoop kind => state.closeLoop kind.closer

namespace Assembly

theorem directive_eq (d : Directive) (args : Option (List Char)) (line : Nat) (state : Assembly) :
    state.directive d args line = (do state.take (← d.mark args) line) := by
  rw [directive, Directive.mark, bind_assoc]
  refine congrArg _ (funext fun inside => ?_)
  cases d <;> simp only [Directive.role, bind_assoc, pure_bind] <;> rfl

theorem add_eq (piece : Piece) (mark : Mark) (state : Assembly) (valid : piece.mark = .ok mark) :
    state.add piece = (state.take mark piece.line).mapError fun kind => ⟨kind, piece.line⟩ := by
  cases piece with
  | text content line | comment content line =>
      obtain rfl := Except.ok.inj valid
      rfl
  | echo source expression line =>
      rw [Piece.mark] at valid
      rw [add]
      cases read : Expr.parse expression with
      | error fault =>
          rw [read] at valid
          cases valid
      | ok e =>
          rw [read] at valid
          obtain rfl := Except.ok.inj valid
          rfl
  | directive d args line =>
      rw [Piece.mark] at valid
      rw [add, directive_eq]
      cases read : d.mark args with
      | error fault =>
          rw [read] at valid
          cases valid
      | ok found =>
          rw [read] at valid
          obtain rfl := Except.ok.inj valid
          rfl

end Assembly

namespace Node

mutual
def marks : Node → List Mark
  | .text content => [.leaf (.text content)]
  | .comment content => [.leaf (.comment content)]
  | .echo expression _ => [.leaf (.echo expression)]
  | .conditional branches none _ =>
      branchMarks (.openConditional .affirmed) branches ++ [.closeConditional .affirmed]
  | .conditional branches (some otherwise) _ =>
      branchMarks (.openConditional .affirmed) branches ++
        .lastBranch :: (listMarks otherwise ++ [.closeConditional .affirmed])
  | .each header body _ => .openLoop (.each header) :: (listMarks body ++ [.closeLoop .each])
  | .counted header body _ => .openLoop (.counted header) :: (listMarks body ++ [.closeLoop .counted])
  | .whilst test body _ => .openLoop (.whilst test) :: (listMarks body ++ [.closeLoop .whilst])
  | .extend template _ => [.leaf (.extend template)]
  | .insert template _ => [.leaf (.insert template)]
  | .yield block default _ => [.leaf (.yield block default)]
  | .openSection block inline _ => [.leaf (.openSection block inline)]
  | .closeSection mode _ => [.leaf (.closeSection mode)]

def listMarks : List Node → List Mark
  | [] => []
  | node :: rest => node.marks ++ listMarks rest

def branchMarks (opener : Expr → Mark) : List (Expr × List Node) → List Mark
  | [] => []
  | (test, body) :: rest => opener test :: (listMarks body ++ branchMarks .nextBranch rest)
end

end Node

-- An unless is written back as an if.
def Mark.normal : Mark → Mark
  | .openConditional kind test => .openConditional .affirmed (kind.test test)
  | .closeConditional _ => .closeConditional .affirmed
  | mark => mark

namespace Mark

def isText : Mark → Bool
  | .leaf (.text _) => true
  | _ => false

def join : Mark → Mark → List Mark
  | .leaf (.text content), .leaf (.text more) => [.leaf (.text (content ++ more))]
  | first, second => [first, second]

def joinFront (mark : Mark) : List Mark → List Mark
  | [] => [mark]
  | second :: rest => join mark second ++ rest

def joinBack : List Mark → Mark → List Mark
  | [], mark => [mark]
  | [last], mark => join last mark
  | first :: second :: rest, mark => first :: joinBack (second :: rest) mark

def joinTexts : List Mark → List Mark
  | [] => []
  | mark :: rest => joinFront mark (joinTexts rest)

theorem join_other (first second : Mark) (other : first.isText = false ∨ second.isText = false) :
    join first second = [first, second] := by
  unfold join
  split
  · rcases other with other | other <;> cases other
  · rfl

theorem joinFront_other (first : Mark) (rest : List Mark) (other : first.isText = false) :
    joinFront first rest = first :: rest := by
  cases rest with
  | nil => rfl
  | cons second rest =>
      rw [joinFront, join_other first second (Or.inl other)]
      rfl

theorem text_or_other (mark : Mark) : (∃ content, mark = .leaf (.text content)) ∨ mark.isText = false := by
  cases mark with
  | leaf leaf =>
      cases leaf with
      | text content => exact Or.inl ⟨content, rfl⟩
      | _ => exact Or.inr rfl
  | _ => exact Or.inr rfl

theorem joinBack_append (before rest : List Mark) (second mark : Mark) :
    joinBack (before ++ second :: rest) mark = before ++ joinBack (second :: rest) mark := by
  induction before with
  | nil => rfl
  | cons first before ih =>
      rw [List.cons_append, List.cons_append, ← ih]
      cases before <;> rfl

theorem joinBack_other (marks : List Mark) (mark : Mark) (other : mark.isText = false) :
    joinBack marks mark = marks ++ [mark] := by
  induction marks with
  | nil => rfl
  | cons first rest ih =>
      cases rest with
      | nil => exact join_other first mark (Or.inr other)
      | cons second rest => exact congrArg (first :: ·) ih

theorem joinFront_join (first second mark : Mark) :
    joinFront first (join second mark) = joinBack (join first second) mark := by
  rcases text_or_other second with ⟨content, rfl⟩ | other
  · rcases text_or_other first with ⟨before, rfl⟩ | other
    · rcases text_or_other mark with ⟨behind, rfl⟩ | other
      · exact congrArg (fun joined => [Mark.leaf (.text joined)]) (String.append_assoc ..).symm
      · rw [join_other _ mark (Or.inr other)]
        exact (join_other _ mark (Or.inr other)).symm
    · rw [joinFront_other first _ other, join_other first _ (Or.inl other)]
      rfl
  · rw [join_other second mark (Or.inl other), join_other first second (Or.inr other), joinFront,
      join_other first second (Or.inr other), joinBack, joinBack, join_other second mark (Or.inl other)]
    rfl

theorem joinFront_joinBack (first mark : Mark) (marks : List Mark) :
    joinFront first (joinBack marks mark) = joinBack (joinFront first marks) mark := by
  cases marks with
  | nil => exact List.append_nil _
  | cons second rest =>
      cases rest with
      | nil => exact (joinFront_join first second mark).trans (congrArg (joinBack · mark) (List.append_nil _).symm)
      | cons third rest => exact (joinBack_append (join first second) rest third mark).symm

theorem joinTexts_append (marks : List Mark) (mark : Mark) :
    joinTexts (marks ++ [mark]) = joinBack (joinTexts marks) mark := by
  induction marks with
  | nil => rfl
  | cons first rest ih => rw [List.cons_append, joinTexts, ih, joinFront_joinBack, joinTexts]

end Mark

namespace Node

theorem listMarks_append (first second : List Node) : listMarks (first ++ second) = listMarks first ++ listMarks second := by
  induction first with
  | nil => rfl
  | cons node rest ih => rw [List.cons_append, listMarks, ih, listMarks, List.append_assoc]

theorem listMarks_latest (node : Node) (body : List Node) :
    listMarks (node :: body).reverse = listMarks body.reverse ++ node.marks := by
  rw [List.reverse_cons, listMarks_append, listMarks, listMarks, List.append_nil]

theorem branchMarks_append (opener : Expr → Mark) (branches : List (Expr × List Node)) (test : Expr) (body : List Node) :
    branchMarks opener (branches ++ [(test, body)]) =
      branchMarks opener branches ++ (if branches.isEmpty then opener test else .nextBranch test) :: listMarks body := by
  induction branches generalizing opener with
  | nil => simp [branchMarks]
  | cons branch rest ih =>
      obtain ⟨first, inner⟩ := branch
      rw [List.cons_append, branchMarks, ih, branchMarks]
      cases rest <;> simp

theorem marks_end (node : Node) (other : ∀ content, node ≠ .text content) :
    ∃ marks last, node.marks = marks ++ [last] ∧ last.isText = false := by
  match node with
  | .text content => exact absurd rfl (other content)
  | .comment _ | .echo _ _ | .extend _ _ | .insert _ _ | .yield _ _ _ | .openSection _ _ _ | .closeSection _ _ =>
      exact ⟨[], _, rfl, rfl⟩
  | .conditional branches none _ =>
      exact ⟨branchMarks (.openConditional .affirmed) branches, .closeConditional .affirmed, rfl, rfl⟩
  | .conditional branches (some otherwise) _ =>
      refine ⟨branchMarks (.openConditional .affirmed) branches ++ .lastBranch :: listMarks otherwise,
        .closeConditional .affirmed, ?_, rfl⟩
      rw [marks, List.append_assoc, List.cons_append]
  | .each header body _ => exact ⟨.openLoop (.each header) :: listMarks body, _, rfl, rfl⟩
  | .counted header body _ => exact ⟨.openLoop (.counted header) :: listMarks body, _, rfl, rfl⟩
  | .whilst test body _ => exact ⟨.openLoop (.whilst test) :: listMarks body, _, rfl, rfl⟩

end Node

end Stencil
