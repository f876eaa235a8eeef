import Stencil.Program.Node
import Stencil.Proofs.Expr.Each

set_option autoImplicit false

namespace Stencil

namespace Node

-- What is asked of the parts of nodes: of texts, of the expressions of echoes, of what a yield prints
-- in place of its block, of all other expressions, and of lines.
structure Standard where
  text : String → Prop
  echo : Expr → Prop
  fallback : Expr → Prop
  part : Expr → Prop
  line : Nat → Prop

def Standard.literals (literal : Value → Prop) (line : Nat → Prop) : Standard :=
  ⟨fun _ => True, Expr.Each literal, Expr.Each literal, Expr.Each literal, line⟩

def Standard.free : Standard := ⟨fun _ => True, fun _ => True, fun _ => True, fun _ => True, fun _ => True⟩

mutual
def Each (standard : Standard) : Node → Prop
  | .text content => standard.text content
  | .comment _ => True
  | .echo expression line => standard.echo expression ∧ standard.line line
  | .conditional branches none line => EachBranch standard branches ∧ standard.line line
  | .conditional branches (some otherwise) line =>
      EachBranch standard branches ∧ EachOf standard otherwise ∧ standard.line line
  | .each header body line => header.Each standard.part ∧ EachOf standard body ∧ standard.line line
  | .counted header body line => header.Each standard.part ∧ EachOf standard body ∧ standard.line line
  | .whilst test body line => standard.part test ∧ EachOf standard body ∧ standard.line line
  | .extend template line => standard.part template ∧ standard.line line
  | .insert template line => standard.part template ∧ standard.line line
  | .yield block default line =>
      standard.part block ∧ (∀ e ∈ default, standard.fallback e) ∧ standard.line line
  | .openSection block inline line =>
      standard.part block ∧ (∀ e ∈ inline, standard.part e) ∧ standard.line line
  | .closeSection _ line => standard.line line

def EachOf (standard : Standard) : List Node → Prop
  | [] => True
  | node :: rest => node.Each standard ∧ EachOf standard rest

def EachBranch (standard : Standard) : List (Expr × List Node) → Prop
  | [] => True
  | (test, body) :: rest => standard.part test ∧ EachOf standard body ∧ EachBranch standard rest
end

mutual
theorem each_free (node : Node) : node.Each .free := by
  match node with
  | .text _ | .comment _ | .closeSection _ _ => trivial
  | .echo _ _ | .extend _ _ | .insert _ _ => exact ⟨trivial, trivial⟩
  | .conditional branches none _ => exact ⟨eachBranch_free branches, trivial⟩
  | .conditional branches (some otherwise) _ =>
      exact ⟨eachBranch_free branches, eachOf_free otherwise, trivial⟩
  | .each _ body _ => exact ⟨trivial, eachOf_free body, trivial⟩
  | .counted header body _ => exact ⟨header.each_all _ fun _ => trivial, eachOf_free body, trivial⟩
  | .whilst _ body _ => exact ⟨trivial, eachOf_free body, trivial⟩
  | .yield _ _ _ | .openSection _ _ _ => exact ⟨trivial, fun _ _ => trivial, trivial⟩

theorem eachOf_free (nodes : List Node) : EachOf .free nodes := by
  cases nodes with
  | nil => trivial
  | cons node rest => exact ⟨each_free node, eachOf_free rest⟩

theorem eachBranch_free (branches : List (Expr × List Node)) : EachBranch .free branches := by
  match branches with
  | [] => trivial
  | (_, body) :: rest => exact ⟨trivial, eachOf_free body, eachBranch_free rest⟩
end

theorem eachOf_iff (standard : Standard) (nodes : List Node) :
    EachOf standard nodes ↔ ∀ node ∈ nodes, node.Each standard := by
  induction nodes with
  | nil => simp [EachOf]
  | cons node rest ih => simp only [EachOf, ih, List.forall_mem_cons]

theorem eachBranch_iff (standard : Standard) (branches : List (Expr × List Node)) :
    EachBranch standard branches ↔
      ∀ branch ∈ branches, standard.part branch.1 ∧ EachOf standard branch.2 := by
  induction branches with
  | nil => simp [EachBranch]
  | cons branch rest ih =>
      obtain ⟨test, body⟩ := branch
      simp only [EachBranch, ih, List.forall_mem_cons, and_assoc]

structure Standard.Join (P Q R : Standard) : Prop where
  text : ∀ content, P.text content → Q.text content → R.text content
  echo : ∀ e, P.echo e → Q.echo e → R.echo e
  fallback : ∀ e, P.fallback e → Q.fallback e → R.fallback e
  part : ∀ e, P.part e → Q.part e → R.part e
  line : ∀ line, P.line line → Q.line line → R.line line

theorem Standard.join_literals (P Q R : Value → Prop) (S T U : Nat → Prop)
    (join : ∀ value, P value → Q value → R value) (line : ∀ line, S line → T line → U line) :
    Join (literals P S) (literals Q T) (literals R U) :=
  ⟨fun _ _ _ => trivial, Expr.each_both P Q R join, Expr.each_both P Q R join, Expr.each_both P Q R join, line⟩

mutual
theorem each_both (P Q R : Standard) (join : Standard.Join P Q R) (node : Node) (first : node.Each P)
    (second : node.Each Q) : node.Each R := by
  match node with
  | .text content => exact join.text content first second
  | .comment _ => trivial
  | .closeSection _ line => exact join.line line first second
  | .echo test line => exact ⟨join.echo test first.1 second.1, join.line line first.2 second.2⟩
  | .extend test line | .insert test line =>
      exact ⟨join.part test first.1 second.1, join.line line first.2 second.2⟩
  | .conditional branches none line =>
      exact ⟨eachBranch_both P Q R join branches first.1 second.1, join.line line first.2 second.2⟩
  | .conditional branches (some otherwise) line =>
      exact ⟨eachBranch_both P Q R join branches first.1 second.1,
        eachOf_both P Q R join otherwise first.2.1 second.2.1, join.line line first.2.2 second.2.2⟩
  | .each header body line =>
      exact ⟨header.each_both _ _ _ join.part first.1 second.1,
        eachOf_both P Q R join body first.2.1 second.2.1, join.line line first.2.2 second.2.2⟩
  | .counted header body line =>
      exact ⟨header.each_both _ _ _ join.part first.1 second.1,
        eachOf_both P Q R join body first.2.1 second.2.1, join.line line first.2.2 second.2.2⟩
  | .whilst test body line =>
      exact ⟨join.part test first.1 second.1, eachOf_both P Q R join body first.2.1 second.2.1,
        join.line line first.2.2 second.2.2⟩
  | .yield block default line =>
      refine ⟨join.part block first.1 second.1, fun e inside => ?_, join.line line first.2.2 second.2.2⟩
      exact join.fallback e (first.2.1 e inside) (second.2.1 e inside)
  | .openSection block inline line =>
      refine ⟨join.part block first.1 second.1, fun e inside => ?_, join.line line first.2.2 second.2.2⟩
      exact join.part e (first.2.1 e inside) (second.2.1 e inside)

theorem eachOf_both (P Q R : Standard) (join : Standard.Join P Q R) (nodes : List Node)
    (first : EachOf P nodes) (second : EachOf Q nodes) : EachOf R nodes := by
  cases nodes with
  | nil => trivial
  | cons node rest =>
      exact ⟨each_both P Q R join node first.1 second.1, eachOf_both P Q R join rest first.2 second.2⟩

theorem eachBranch_both (P Q R : Standard) (join : Standard.Join P Q R)
    (branches : List (Expr × List Node)) (first : EachBranch P branches) (second : EachBranch Q branches) :
    EachBranch R branches := by
  match branches with
  | [] => trivial
  | (test, body) :: rest =>
      exact ⟨join.part test first.1 second.1, eachOf_both P Q R join body first.2.1 second.2.1,
        eachBranch_both P Q R join rest first.2.2 second.2.2⟩
end

end Node

end Stencil
