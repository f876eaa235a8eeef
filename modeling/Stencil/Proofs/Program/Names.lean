import Stencil.Proofs.Expr.Names
import Stencil.Proofs.Program.Code

set_option autoImplicit false

namespace Stencil

def Assignment.names : Assignment → List String
  | .set name value => name :: value.names
  | .add name value => name :: value.names
  | .sub name value => name :: value.names
  | .increment name => [name]
  | .decrement name => [name]

def EachHeader.names (header : EachHeader) : List String :=
  header.source.names ++ (header.key.toList ++ [header.value])

def ForHeader.names (header : ForHeader) : List String :=
  header.init.flatMap Assignment.names ++
    (header.condition.toList.flatMap Expr.names ++ header.step.flatMap Assignment.names)

namespace Node

mutual
def names : Node → List String
  | .text _ => []
  | .comment _ => []
  | .echo expression _ => expression.names
  | .conditional branches none _ => branchNames branches
  | .conditional branches (some otherwise) _ => branchNames branches ++ allNames otherwise
  | .each header body _ => header.names ++ allNames body
  | .counted header body _ => header.names ++ allNames body
  | .whilst test body _ => test.names ++ allNames body
  | .extend template _ => template.names
  | .insert template _ => template.names
  | .yield block default _ => block.names ++ default.toList.flatMap Expr.names
  | .openSection block inline _ => block.names ++ inline.toList.flatMap Expr.names
  | .closeSection _ _ => []

def allNames : List Node → List String
  | [] => []
  | node :: rest => node.names ++ allNames rest

def branchNames : List (Expr × List Node) → List String
  | [] => []
  | (test, body) :: rest => test.names ++ (allNames body ++ branchNames rest)
end

end Node

def Program.names (program : Program) : List String := Node.allNames program.nodes

theorem Expr.names_mapM (part other : Option Expr) (read : part.mapM Expr.reread? = some other) :
    other.toList.flatMap Expr.names = part.toList.flatMap Expr.names := by
  cases part with
  | none =>
      obtain rfl := Option.some.inj read
      rfl
  | some e =>
      simp only [Option.mapM_some, Option.map_eq_map, Option.map_eq_some_iff] at read
      obtain ⟨e', again, rfl⟩ := read
      simp only [Option.toList_some, List.flatMap_singleton, names_reread e e' again]

theorem Assignment.names_reread (statement other : Assignment) (read : statement.reread? = some other) :
    other.names = statement.names := by
  cases statement with
  | increment name | decrement name =>
      obtain rfl := Option.some.inj read
      rfl
  | set name value | add name value | sub name value =>
      simp only [reread?, Option.bind_eq_bind, Option.bind_eq_some_iff, Option.pure_def, Option.some.injEq] at read
      obtain ⟨value', again, rfl⟩ := read
      rw [names, names, Expr.names_reread value value' again]

theorem Assignment.names_mapM (statements others : List Assignment)
    (read : statements.mapM Assignment.reread? = some others) :
    others.flatMap names = statements.flatMap names := by
  induction statements generalizing others with
  | nil =>
      obtain rfl := Option.some.inj read
      rfl
  | cons statement rest ih =>
      simp only [List.mapM_cons, Option.bind_eq_bind, Option.bind_eq_some_iff, Option.pure_def,
        Option.some.injEq] at read
      obtain ⟨statement', first, rest', later, rfl⟩ := read
      rw [List.flatMap_cons, List.flatMap_cons, names_reread statement statement' first, ih rest' later]

theorem EachHeader.names_reread (header other : EachHeader) (read : header.reread? = some other) :
    other.names = header.names := by
  simp only [reread?, Option.bind_eq_bind, Option.bind_eq_some_iff, Option.pure_def, Option.some.injEq] at read
  obtain ⟨source', again, rfl⟩ := read
  rw [names, names, Expr.names_reread header.source source' again]

theorem ForHeader.names_reread (header other : ForHeader) (read : header.reread? = some other) :
    other.names = header.names := by
  simp only [reread?, Option.bind_eq_bind, Option.bind_eq_some_iff, Option.pure_def, Option.some.injEq] at read
  obtain ⟨init', first, condition', second, step', third, rfl⟩ := read
  rw [names, names, Assignment.names_mapM header.init init' first, Expr.names_mapM header.condition condition' second,
    Assignment.names_mapM header.step step' third]

namespace Node

mutual
theorem names_reread (node other : Node) (read : node.reread? = some other) : other.names = node.names := by
  match node with
  | .text _ | .comment _ | .closeSection _ _ =>
      obtain rfl := Option.some.inj read
      rfl
  | .echo e line | .extend e line | .insert e line =>
      simp only [reread?, Option.bind_eq_bind, Option.bind_eq_some_iff, Option.pure_def, Option.some.injEq] at read
      obtain ⟨e', again, rfl⟩ := read
      exact Expr.names_reread e e' again
  | .conditional branches none line =>
      simp only [reread?, Option.bind_eq_bind, Option.bind_eq_some_iff, Option.pure_def, Option.some.injEq] at read
      obtain ⟨branches', again, rfl⟩ := read
      exact branchNames_reread branches branches' again
  | .conditional branches (some otherwise) line =>
      simp only [reread?, Option.bind_eq_bind, Option.bind_eq_some_iff, Option.pure_def, Option.some.injEq] at read
      obtain ⟨branches', first, otherwise', second, rfl⟩ := read
      rw [names, names, branchNames_reread branches branches' first, allNames_reread otherwise otherwise' second]
  | .each header body line =>
      simp only [reread?, Option.bind_eq_bind, Option.bind_eq_some_iff, Option.pure_def, Option.some.injEq] at read
      obtain ⟨header', first, body', second, rfl⟩ := read
      rw [names, names, header.names_reread header' first, allNames_reread body body' second]
  | .counted header body line =>
      simp only [reread?, Option.bind_eq_bind, Option.bind_eq_some_iff, Option.pure_def, Option.some.injEq] at read
      obtain ⟨header', first, body', second, rfl⟩ := read
      rw [names, names, header.names_reread header' first, allNames_reread body body' second]
  | .whilst test body line =>
      simp only [reread?, Option.bind_eq_bind, Option.bind_eq_some_iff, Option.pure_def, Option.some.injEq] at read
      obtain ⟨test', first, body', second, rfl⟩ := read
      rw [names, names, test.names_reread test' first, allNames_reread body body' second]
  | .yield block part line | .openSection block part line =>
      simp only [reread?, Option.bind_eq_bind, Option.bind_eq_some_iff, Option.pure_def, Option.some.injEq] at read
      obtain ⟨block', first, part', second, rfl⟩ := read
      rw [names, names, block.names_reread block' first, Expr.names_mapM part part' second]

theorem allNames_reread (nodes others : List Node) (read : rereads? nodes = some others) :
    allNames others = allNames nodes := by
  match nodes with
  | [] =>
      obtain rfl := Option.some.inj read
      rfl
  | node :: rest =>
      simp only [rereads?, Option.bind_eq_bind, Option.bind_eq_some_iff, Option.pure_def, Option.some.injEq] at read
      obtain ⟨node', first, rest', later, rfl⟩ := read
      rw [allNames, allNames, names_reread node node' first, allNames_reread rest rest' later]

theorem branchNames_reread (branches others : List (Expr × List Node))
    (read : rereadBranches? branches = some others) : branchNames others = branchNames branches := by
  match branches with
  | [] =>
      obtain rfl := Option.some.inj read
      rfl
  | (test, body) :: rest =>
      simp only [rereadBranches?, Option.bind_eq_bind, Option.bind_eq_some_iff, Option.pure_def,
        Option.some.injEq] at read
      obtain ⟨test', first, body', second, rest', third, rfl⟩ := read
      rw [branchNames, branchNames, test.names_reread test' first, allNames_reread body body' second,
        branchNames_reread rest rest' third]
end

theorem allNames_mapM (nodes others : List Node) (read : nodes.mapM Program.rereadRoot? = some others) :
    allNames others = allNames nodes := by
  induction nodes generalizing others with
  | nil =>
      obtain rfl := Option.some.inj read
      rfl
  | cons node rest ih =>
      simp only [List.mapM_cons, Option.bind_eq_bind, Option.bind_eq_some_iff, Option.pure_def,
        Option.some.injEq] at read
      obtain ⟨node', first, rest', later, rfl⟩ := read
      rw [Program.rereadRoot?] at first
      split at first
      · rw [allNames, allNames, names_reread node node' first, ih rest' later]
      · cases first

end Node

theorem Program.names_ofCode (program other : Program) (read : ofCode? program.code = some other) :
    other.names = program.names := by
  rw [ofCode_code, Option.bind_eq_bind, Option.bind_eq_some_iff] at read
  obtain ⟨nodes, again, read⟩ := read
  split at read
  · obtain rfl := Option.some.inj read
    exact Node.allNames_mapM program.nodes nodes again
  · cases read

end Stencil
