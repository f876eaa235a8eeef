import Mathlib.Data.List.Forall2
import Stencil.Proofs.Program.Code
import Stencil.Proofs.Program.Mentions

set_option autoImplicit false

namespace Stencil

structure Mention.Restored (written served : Mention) : Prop where
  line : served.line = written.line
  expression : written.expression.reread? = some served.expression

abbrev AllRestored : List Mention → List Mention → Prop := List.Forall₂ Mention.Restored

theorem restored_getElem (written served : List Mention) (all : AllRestored written served) (place : Nat)
    (mention : Mention) (found : served[place]? = some mention) :
    ∃ before, written[place]? = some before ∧ before.Restored mention := by
  induction all generalizing place with
  | nil => cases found
  | cons same _ ih =>
      cases place with
      | zero =>
          obtain rfl := Option.some.inj found
          exact ⟨_, rfl, same⟩
      | succ place => exact ih place found

theorem restored_on (line : Nat) (expressions others : List Expr)
    (read : expressions.mapM Expr.reread? = some others) :
    AllRestored (mentionsOn line expressions) (mentionsOn line others) := by
  induction expressions generalizing others with
  | nil =>
      obtain rfl := Option.some.inj read
      exact .nil
  | cons e rest ih =>
      simp only [List.mapM_cons, Option.bind_eq_bind, Option.bind_eq_some_iff, Option.pure_def, Option.some.injEq] at read
      obtain ⟨e', first, rest', later, rfl⟩ := read
      exact .cons ⟨rfl, first⟩ (ih rest' later)

theorem restored_single (line : Nat) (e other : Expr) (read : e.reread? = some other) :
    AllRestored (mentionsOn line [e]) (mentionsOn line [other]) :=
  .cons ⟨rfl, read⟩ .nil

theorem reread_one : Assignment.one.reread? = some Assignment.one := by
  rw [Assignment.one, Expr.reread?, Value.reread_self (Value.ofNat 1) trivial trivial]
  rfl

namespace Assignment

theorem value_reread (statement other : Assignment) (read : statement.reread? = some other) :
    statement.value.reread? = some other.value := by
  cases statement with
  | set name value =>
      simp only [reread?, Option.bind_eq_bind, Option.bind_eq_some_iff, Option.pure_def, Option.some.injEq] at read
      obtain ⟨value', again, rfl⟩ := read
      exact again
  | add name value | sub name value =>
      simp only [reread?, Option.bind_eq_bind, Option.bind_eq_some_iff, Option.pure_def, Option.some.injEq] at read
      obtain ⟨value', again, rfl⟩ := read
      simp only [Assignment.value, target, Expr.reread?, again, Option.bind_eq_bind, Option.bind_some, Option.pure_def]
  | increment name | decrement name =>
      obtain rfl := Option.some.inj read
      simp only [Assignment.value, target, Expr.reread?, reread_one, Option.bind_eq_bind, Option.bind_some,
        Option.pure_def]

theorem values_mapM (statements others : List Assignment) (read : statements.mapM reread? = some others) :
    (statements.map Assignment.value).mapM Expr.reread? = some (others.map Assignment.value) := by
  induction statements generalizing others with
  | nil =>
      obtain rfl := Option.some.inj read
      rfl
  | cons statement rest ih =>
      simp only [List.mapM_cons, Option.bind_eq_bind, Option.bind_eq_some_iff, Option.pure_def, Option.some.injEq] at read
      obtain ⟨statement', first, rest', later, rfl⟩ := read
      simp only [List.map_cons, List.mapM_cons, value_reread statement statement' first, ih rest' later,
        Option.bind_eq_bind, Option.bind_some, Option.pure_def]

end Assignment

theorem Expr.toList_mapM (part other : Option Expr) (read : part.mapM Expr.reread? = some other) :
    part.toList.mapM Expr.reread? = some other.toList := by
  cases part with
  | none =>
      obtain rfl := Option.some.inj read
      rfl
  | some e =>
      simp only [Option.mapM_some, Option.map_eq_map, Option.map_eq_some_iff] at read
      obtain ⟨e', again, rfl⟩ := read
      simp only [Option.toList_some, List.mapM_cons, again, List.mapM_nil, Option.bind_eq_bind, Option.bind_some,
        Option.pure_def]

theorem ForHeader.expressions_reread (header other : ForHeader) (read : header.reread? = some other) :
    header.expressions.mapM Expr.reread? = some other.expressions := by
  simp only [reread?, Option.bind_eq_bind, Option.bind_eq_some_iff, Option.pure_def, Option.some.injEq] at read
  obtain ⟨init', first, condition', second, step', third, rfl⟩ := read
  simp only [expressions, List.mapM_append, Assignment.values_mapM header.init init' first,
    Expr.toList_mapM header.condition condition' second, Assignment.values_mapM header.step step' third,
    Option.bind_eq_bind, Option.bind_some, Option.pure_def]

theorem EachHeader.source_reread (header other : EachHeader) (read : header.reread? = some other) :
    header.source.reread? = some other.source := by
  simp only [reread?, Option.bind_eq_bind, Option.bind_eq_some_iff, Option.pure_def, Option.some.injEq] at read
  obtain ⟨source', again, rfl⟩ := read
  exact again

namespace Node

mutual
theorem restored_reread (node other : Node) (wellFormed : node.Each wellFormed) (read : node.reread? = some other) :
    AllRestored node.mentions other.mentions := by
  match node with
  | .text _ | .comment _ | .closeSection _ _ =>
      obtain rfl := Option.some.inj read
      exact .nil
  | .echo e line | .extend e line | .insert e line =>
      simp only [reread?, Option.bind_eq_bind, Option.bind_eq_some_iff, Option.pure_def, Option.some.injEq] at read
      obtain ⟨e', again, rfl⟩ := read
      rw [Nat.mod_eq_of_lt wellFormed.2]
      exact restored_single line e e' again
  | .conditional branches none line =>
      simp only [reread?, Option.bind_eq_bind, Option.bind_eq_some_iff, Option.pure_def, Option.some.injEq] at read
      obtain ⟨branches', again, rfl⟩ := read
      rw [Nat.mod_eq_of_lt wellFormed.2]
      exact restored_branches line branches branches' wellFormed.1 again
  | .conditional branches (some otherwise) line =>
      simp only [reread?, Option.bind_eq_bind, Option.bind_eq_some_iff, Option.pure_def, Option.some.injEq] at read
      obtain ⟨branches', first, otherwise', second, rfl⟩ := read
      obtain ⟨tests, last, short⟩ := wellFormed
      rw [Nat.mod_eq_of_lt short, mentions, mentions]
      exact List.rel_append (restored_branches line branches branches' tests first)
        (restored_rereads otherwise otherwise' last second)
  | .each header body line =>
      simp only [reread?, Option.bind_eq_bind, Option.bind_eq_some_iff, Option.pure_def, Option.some.injEq] at read
      obtain ⟨header', first, body', second, rfl⟩ := read
      obtain ⟨_, inner, short⟩ := wellFormed
      rw [Nat.mod_eq_of_lt short, mentions, mentions]
      exact List.rel_append (restored_single line _ _ (header.source_reread header' first))
        (restored_rereads body body' inner second)
  | .counted header body line =>
      simp only [reread?, Option.bind_eq_bind, Option.bind_eq_some_iff, Option.pure_def, Option.some.injEq] at read
      obtain ⟨header', first, body', second, rfl⟩ := read
      obtain ⟨_, inner, short⟩ := wellFormed
      rw [Nat.mod_eq_of_lt short, mentions, mentions]
      exact List.rel_append (restored_on line _ _ (header.expressions_reread header' first))
        (restored_rereads body body' inner second)
  | .whilst test body line =>
      simp only [reread?, Option.bind_eq_bind, Option.bind_eq_some_iff, Option.pure_def, Option.some.injEq] at read
      obtain ⟨test', first, body', second, rfl⟩ := read
      obtain ⟨_, inner, short⟩ := wellFormed
      rw [Nat.mod_eq_of_lt short, mentions, mentions]
      exact List.rel_append (restored_single line test test' first) (restored_rereads body body' inner second)
  | .yield block part line | .openSection block part line =>
      simp only [reread?, Option.bind_eq_bind, Option.bind_eq_some_iff, Option.pure_def, Option.some.injEq] at read
      obtain ⟨block', first, part', second, rfl⟩ := read
      rw [Nat.mod_eq_of_lt wellFormed.2.2]
      exact .cons ⟨rfl, first⟩ (restored_on line _ _ (Expr.toList_mapM part part' second))

theorem restored_rereads (nodes others : List Node) (wellFormed : EachOf wellFormed nodes)
    (read : rereads? nodes = some others) : AllRestored (listMentions nodes) (listMentions others) := by
  match nodes with
  | [] =>
      obtain rfl := Option.some.inj read
      exact .nil
  | node :: rest =>
      simp only [rereads?, Option.bind_eq_bind, Option.bind_eq_some_iff, Option.pure_def, Option.some.injEq] at read
      obtain ⟨node', first, rest', later, rfl⟩ := read
      exact List.rel_append (restored_reread node node' wellFormed.1 first)
        (restored_rereads rest rest' wellFormed.2 later)

theorem restored_branches (line : Nat) (branches others : List (Expr × List Node))
    (wellFormed : EachBranch wellFormed branches) (read : rereadBranches? branches = some others) :
    AllRestored (branchMentions line branches) (branchMentions line others) := by
  match branches with
  | [] =>
      obtain rfl := Option.some.inj read
      exact .nil
  | (test, body) :: rest =>
      simp only [rereadBranches?, Option.bind_eq_bind, Option.bind_eq_some_iff, Option.pure_def,
        Option.some.injEq] at read
      obtain ⟨test', first, body', second, rest', third, rfl⟩ := read
      obtain ⟨_, inner, others⟩ := wellFormed
      exact .cons ⟨rfl, first⟩ (List.rel_append (restored_rereads body body' inner second)
        (restored_branches line rest rest' others third))
end

theorem restored_mapM (nodes others : List Node) (wellFormed : EachOf wellFormed nodes)
    (read : nodes.mapM Program.rereadRoot? = some others) : AllRestored (listMentions nodes) (listMentions others) := by
  induction nodes generalizing others with
  | nil =>
      obtain rfl := Option.some.inj read
      exact .nil
  | cons node rest ih =>
      simp only [List.mapM_cons, Option.bind_eq_bind, Option.bind_eq_some_iff, Option.pure_def,
        Option.some.injEq] at read
      obtain ⟨node', first, rest', later, rfl⟩ := read
      rw [Program.rereadRoot?] at first
      split at first
      · exact List.rel_append (restored_reread node node' wellFormed.1 first) (ih rest' wellFormed.2 later)
      · cases first

end Node

theorem Program.restored_ofCode (program other : Program) (wellFormed : program.WellFormed)
    (read : ofCode? program.code = some other) : AllRestored program.mentions other.mentions := by
  rw [ofCode_code, Option.bind_eq_bind, Option.bind_eq_some_iff] at read
  obtain ⟨nodes, again, read⟩ := read
  split at read
  · obtain rfl := Option.some.inj read
    exact Node.restored_mapM program.nodes nodes wellFormed again
  · cases read

end Stencil
