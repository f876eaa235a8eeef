import Stencil.Proofs.Program.Marks
import Stencil.Render.Execution

set_option autoImplicit false

namespace Stencil

structure Mention where
  expression : Expr
  line : Nat

def mentionsOn (line : Nat) (expressions : List Expr) : List Mention := expressions.map fun e => ⟨e, line⟩

theorem mentionsOn_append (line : Nat) (first second : List Expr) :
    mentionsOn line (first ++ second) = mentionsOn line first ++ mentionsOn line second := List.map_append

theorem length_mentionsOn (line : Nat) (expressions : List Expr) :
    (mentionsOn line expressions).length = expressions.length := List.length_map _

def Assignment.value (assignment : Assignment) : Expr := assignment.target.2

def ForHeader.expressions (header : ForHeader) : List Expr :=
  header.init.map Assignment.value ++ (header.condition.toList ++ header.step.map Assignment.value)

def LoopHead.expressions : LoopHead → List Expr
  | .counted header => header.expressions
  | .each header => [header.source]
  | .whilst test => [test]

namespace Node

mutual
def mentions : Node → List Mention
  | .text _ | .comment _ | .closeSection _ _ => []
  | .echo e line | .extend e line | .insert e line => mentionsOn line [e]
  | .conditional branches none line => branchMentions line branches
  | .conditional branches (some otherwise) line => branchMentions line branches ++ listMentions otherwise
  | .each header body line => mentionsOn line [header.source] ++ listMentions body
  | .counted header body line => mentionsOn line header.expressions ++ listMentions body
  | .whilst test body line => mentionsOn line [test] ++ listMentions body
  | .yield block part line | .openSection block part line => mentionsOn line (block :: part.toList)

def listMentions : List Node → List Mention
  | [] => []
  | node :: rest => node.mentions ++ listMentions rest

def branchMentions (line : Nat) : List (Expr × List Node) → List Mention
  | [] => []
  | (test, body) :: rest => ⟨test, line⟩ :: (listMentions body ++ branchMentions line rest)
end

end Node

def Program.mentions (program : Program) : List Mention := Node.listMentions program.nodes

namespace Node

theorem listMentions_append (first second : List Node) :
    listMentions (first ++ second) = listMentions first ++ listMentions second := by
  induction first with
  | nil => rfl
  | cons node rest ih => rw [List.cons_append, listMentions, ih, listMentions, List.append_assoc]

theorem listMentions_latest (node : Node) (body : List Node) :
    listMentions (node :: body).reverse = listMentions body.reverse ++ node.mentions := by
  rw [List.reverse_cons, listMentions_append, listMentions, listMentions, List.append_nil]

theorem listMentions_addNode (node : Node) (body : List Node) :
    listMentions (addNode node body).reverse = listMentions body.reverse ++ node.mentions := by
  rw [addNode.eq_def]
  split
  · rw [listMentions_latest, listMentions_latest]
    exact (List.append_nil _).symm
  · exact listMentions_latest _ _

theorem branchMentions_append (line : Nat) (branches : List (Expr × List Node)) (test : Expr) (body : List Node) :
    branchMentions line (branches ++ [(test, body)])
      = branchMentions line branches ++ ⟨test, line⟩ :: listMentions body := by
  induction branches with
  | nil => rw [List.nil_append, branchMentions, branchMentions, branchMentions, List.append_nil, List.nil_append]
  | cons branch rest ih =>
      obtain ⟨first, inner⟩ := branch
      rw [List.cons_append, branchMentions, ih, branchMentions, List.cons_append, List.append_assoc]

end Node

end Stencil
