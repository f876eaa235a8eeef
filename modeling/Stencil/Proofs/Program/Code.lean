import Stencil.Program.Code
import Stencil.Proofs.Expr.Code
import Stencil.Proofs.Program.Each

set_option autoImplicit false

namespace Stencil

open Json (Tree Field Variant)

deriving instance DecidableEq for Number

namespace Node

abbrev wellFormed : Standard := .literals Value.Ordered (· < Decimal.wordLimit)

abbrev floatsReadBack : Standard := .literals Value.FloatsReadBack fun _ => True

abbrev readBack : Standard := .literals (fun value => value.reread? = some value) (· < Decimal.wordLimit)

mutual
def reread? : Node → Option Node
  | .text content => some (.text content)
  | .comment content => some (.comment content)
  | .echo expression line => do return .echo (← expression.reread?) (line % Decimal.wordLimit)
  | .conditional branches none line => do
      return .conditional (← rereadBranches? branches) none (line % Decimal.wordLimit)
  | .conditional branches (some otherwise) line => do
      return .conditional (← rereadBranches? branches) (some (← rereads? otherwise))
        (line % Decimal.wordLimit)
  | .each header body line => do
      return .each (← header.reread?) (← rereads? body) (line % Decimal.wordLimit)
  | .counted header body line => do
      return .counted (← header.reread?) (← rereads? body) (line % Decimal.wordLimit)
  | .whilst test body line => do
      return .whilst (← test.reread?) (← rereads? body) (line % Decimal.wordLimit)
  | .extend template line => do return .extend (← template.reread?) (line % Decimal.wordLimit)
  | .insert template line => do return .insert (← template.reread?) (line % Decimal.wordLimit)
  | .yield block default line => do
      return .yield (← block.reread?) (← default.mapM Expr.reread?) (line % Decimal.wordLimit)
  | .openSection block inline line => do
      return .openSection (← block.reread?) (← inline.mapM Expr.reread?) (line % Decimal.wordLimit)
  | .closeSection mode line => some (.closeSection mode (line % Decimal.wordLimit))

def rereads? : List Node → Option (List Node)
  | [] => some []
  | node :: rest => do return (← node.reread?) :: (← rereads? rest)

def rereadBranches? : List (Expr × List Node) → Option (List (Expr × List Node))
  | [] => some []
  | (test, body) :: rest => do
      return (← test.reread?, ← rereads? body) :: (← rereadBranches? rest)
end

theorem forms_distinct (form : Form) : forms.Distinct form := by
  cases form <;> decide +kernel

theorem mode_named (mode : EndMode) :
    EndMode.all.find? (fun other => other.code == mode.code) = some mode := by
  cases mode <;> decide +kernel

-- A form that is written is told by its name, so that it does not matter whether places count.
mutual
theorem ofTree_reread (node : Node) (nested : Bool) : ofTree? nested node.toTree.reread = node.reread? := by
  match node with
  | .text content =>
      obtain ⟨_, read⟩ := forms.read_write .text nested [.string content] (forms_distinct _) rfl
      rw [toTree, ofTree?, read]
      rfl
  | .comment content =>
      obtain ⟨_, read⟩ := forms.read_write .comment nested [.string content] (forms_distinct _) rfl
      rw [toTree, ofTree?, read]
      rfl
  | .echo expression line =>
      obtain ⟨_, read⟩ := forms.read_write .echo nested [expression.toTree, .ofNat line]
        (forms_distinct _) rfl
      rw [toTree, ofTree?, read, reread?, ← expression.ofTree_reread]
      simp only [Json.rereadItems, List.attachWith, List.pmap, Option.bind_eq_bind, Option.bind_some,
        Json.natural_reread]
  | .conditional branches none line =>
      obtain ⟨_, read⟩ := forms.read_write .conditional nested
        [.array (toBranchTrees branches), .null, .ofNat line] (forms_distinct _) rfl
      have absent : Tree.null.reread = .null := rfl
      rw [toTree, ofTree?, read, reread?, ← branchArray_reread branches]
      simp only [Json.rereadItems, List.attachWith, List.pmap, Option.bind_eq_bind, Option.bind_some,
        Json.natural_reread, absent]
  | .conditional branches (some otherwise) line =>
      obtain ⟨_, read⟩ := forms.read_write .conditional nested
        [.array (toBranchTrees branches), .array (toTrees otherwise), .ofNat line] (forms_distinct _) rfl
      rw [toTree, ofTree?, read, reread?, ← branchArray_reread branches, ← ofArray_reread otherwise]
      simp only [Json.rereadItems, List.attachWith, List.pmap, Option.bind_eq_bind, Option.bind_some,
        Json.natural_reread, Tree.reread]
  | .each header body line =>
      obtain ⟨_, read⟩ := forms.read_write .each nested
        [header.toTree, .array (toTrees body), .ofNat line] (forms_distinct _) rfl
      rw [toTree, ofTree?, read, reread?, ← header.ofTree_reread, ← ofArray_reread body]
      simp only [Json.rereadItems, List.attachWith, List.pmap, Option.bind_eq_bind, Option.bind_some,
        Json.natural_reread]
  | .counted header body line =>
      obtain ⟨_, read⟩ := forms.read_write .counted nested
        [header.toTree, .array (toTrees body), .ofNat line] (forms_distinct _) rfl
      rw [toTree, ofTree?, read, reread?, ← header.ofTree_reread, ← ofArray_reread body]
      simp only [Json.rereadItems, List.attachWith, List.pmap, Option.bind_eq_bind, Option.bind_some,
        Json.natural_reread]
  | .whilst test body line =>
      obtain ⟨_, read⟩ := forms.read_write .whilst nested
        [test.toTree, .array (toTrees body), .ofNat line] (forms_distinct _) rfl
      rw [toTree, ofTree?, read, reread?, ← test.ofTree_reread, ← ofArray_reread body]
      simp only [Json.rereadItems, List.attachWith, List.pmap, Option.bind_eq_bind, Option.bind_some,
        Json.natural_reread]
  | .extend template line =>
      obtain ⟨_, read⟩ := forms.read_write .extend nested [template.toTree, .ofNat line]
        (forms_distinct _) rfl
      rw [toTree, ofTree?, read, reread?, ← template.ofTree_reread]
      simp only [Json.rereadItems, List.attachWith, List.pmap, Option.bind_eq_bind, Option.bind_some,
        Json.natural_reread]
  | .insert template line =>
      obtain ⟨_, read⟩ := forms.read_write .insert nested [template.toTree, .ofNat line]
        (forms_distinct _) rfl
      rw [toTree, ofTree?, read, reread?, ← template.ofTree_reread]
      simp only [Json.rereadItems, List.attachWith, List.pmap, Option.bind_eq_bind, Option.bind_some,
        Json.natural_reread]
  | .yield block default line =>
      obtain ⟨_, read⟩ := forms.read_write .yield nested
        [block.toTree, optionalTree Expr.toTree default, .ofNat line] (forms_distinct _) rfl
      rw [toTree, ofTree?, read, reread?, ← block.ofTree_reread, ← optional_expr_reread default]
      simp only [Json.rereadItems, List.attachWith, List.pmap, Option.bind_eq_bind, Option.bind_some,
        Json.natural_reread]
  | .openSection block inline line =>
      obtain ⟨_, read⟩ := forms.read_write .openSection nested
        [block.toTree, optionalTree Expr.toTree inline, .ofNat line] (forms_distinct _) rfl
      rw [toTree, ofTree?, read, reread?, ← block.ofTree_reread, ← optional_expr_reread inline]
      simp only [Json.rereadItems, List.attachWith, List.pmap, Option.bind_eq_bind, Option.bind_some,
        Json.natural_reread]
  | .closeSection mode line =>
      obtain ⟨_, read⟩ := forms.read_write .closeSection nested [.string mode.code, .ofNat line]
        (forms_distinct _) rfl
      have named := Json.choice_reread EndMode.all EndMode.code mode (mode_named mode)
      rw [toTree, ofTree?, read, reread?]
      simp only [Json.rereadItems, List.attachWith, List.pmap, Option.bind_eq_bind, Option.bind_some,
        Json.natural_reread, named]
      rfl

theorem ofArray_reread (nodes : List Node) :
    ofArray? (Tree.array (toTrees nodes)).reread = rereads? nodes := by
  rw [Tree.reread, ofArray?, ofTrees_reread nodes]

theorem ofTrees_reread (nodes : List Node) :
    ofTrees? (Json.rereadItems (toTrees nodes)) = rereads? nodes := by
  cases nodes with
  | nil =>
      rw [toTrees, Json.rereadItems, ofTrees?]
      rfl
  | cons node rest =>
      rw [toTrees, Json.rereadItems, ofTrees?, ofTree_reread node, ofTrees_reread rest]
      rfl

theorem branchArray_reread (branches : List (Expr × List Node)) :
    branchArray? (Tree.array (toBranchTrees branches)).reread = rereadBranches? branches := by
  rw [Tree.reread, branchArray?, branches_reread branches]

theorem branches_reread (branches : List (Expr × List Node)) :
    branches? (Json.rereadItems (toBranchTrees branches)) = rereadBranches? branches := by
  match branches with
  | [] =>
      rw [toBranchTrees, Json.rereadItems, branches?]
      rfl
  | (test, body) :: rest =>
      obtain ⟨_, read⟩ := Json.record_reread branchFields [test.toTree, .array (toTrees body)]
        (by decide +kernel) rfl
      rw [toBranchTrees, Json.rereadItems, branches?, branches_reread rest, branch?, read,
        rereadBranches?, ← test.ofTree_reread, ← ofArray_reread body]
      simp only [Json.rereadItems, List.attachWith, List.pmap, Option.bind_eq_bind, Option.bind_some,
        Option.pure_def, Option.bind_assoc]
end

mutual
theorem isReadable_toTree (node : Node) : node.toTree.isReadable = true := by
  match node with
  | .text _ | .comment _ | .closeSection _ _ => exact forms.isReadable_write _ _ rfl
  | .echo test _ | .extend test _ | .insert test _ =>
      apply forms.isReadable_write
      simp only [Json.allReadable, Json.isReadable_ofNat, test.isReadable_toTree, Bool.and_self]
  | .conditional branches none line =>
      apply forms.isReadable_write
      simp only [Json.allReadable, Tree.isReadable, Json.isReadable_ofNat,
        isReadable_toBranchTrees branches, Bool.and_self]
  | .conditional branches (some otherwise) line =>
      apply forms.isReadable_write
      simp only [Json.allReadable, Tree.isReadable, Json.isReadable_ofNat,
        isReadable_toBranchTrees branches, isReadable_toTrees otherwise, Bool.and_self]
  | .each header body line =>
      apply forms.isReadable_write
      simp only [Json.allReadable, Tree.isReadable, Json.isReadable_ofNat, header.isReadable_toTree,
        isReadable_toTrees body, Bool.and_self]
  | .counted header body line =>
      apply forms.isReadable_write
      simp only [Json.allReadable, Tree.isReadable, Json.isReadable_ofNat, header.isReadable_toTree,
        isReadable_toTrees body, Bool.and_self]
  | .whilst test body line =>
      apply forms.isReadable_write
      simp only [Json.allReadable, Tree.isReadable, Json.isReadable_ofNat, test.isReadable_toTree,
        isReadable_toTrees body, Bool.and_self]
  | .yield block part line | .openSection block part line =>
      apply forms.isReadable_write
      simp only [Json.allReadable, Json.isReadable_ofNat, block.isReadable_toTree,
        isReadable_optionalTree Expr.toTree Expr.isReadable_toTree, Bool.and_self]

theorem isReadable_toTrees (nodes : List Node) : Json.allReadable (toTrees nodes) = true := by
  cases nodes with
  | nil => rfl
  | cons node rest =>
      rw [toTrees, Json.allReadable, isReadable_toTree node, isReadable_toTrees rest]
      rfl

theorem isReadable_toBranchTrees (branches : List (Expr × List Node)) :
    Json.allReadable (toBranchTrees branches) = true := by
  match branches with
  | [] => rfl
  | (test, body) :: rest =>
      have branch : (Tree.record branchFields [test.toTree, .array (toTrees body)]).isReadable = true := by
        apply Json.isReadable_record
        simp only [Json.allReadable, Tree.isReadable, test.isReadable_toTree, isReadable_toTrees body,
          Bool.and_self]
      rw [toBranchTrees, Json.allReadable, branch, isReadable_toBranchTrees rest]
      rfl
end

mutual
theorem reread_toTree (node : Node) (reads : node.Each floatsReadBack) :
    node.toTree.reread = node.toTree := by
  match node with
  | .text _ | .comment _ =>
      rw [toTree, forms.reread_write]
      rfl
  | .closeSection _ _ =>
      rw [toTree, forms.reread_write]
      simp only [Json.rereadItems, Json.reread_ofNat, Tree.reread]
  | .echo test _ | .extend test _ | .insert test _ =>
      rw [toTree, forms.reread_write]
      simp only [Json.rereadItems, Json.reread_ofNat, test.reread_toTree reads.1]
  | .conditional branches none line =>
      rw [toTree, forms.reread_write]
      simp only [Json.rereadItems, Json.reread_ofNat, Tree.reread, reread_toBranchTrees branches reads.1]
  | .conditional branches (some otherwise) line =>
      rw [toTree, forms.reread_write]
      simp only [Json.rereadItems, Json.reread_ofNat, Tree.reread, reread_toBranchTrees branches reads.1,
        reread_toTrees otherwise reads.2.1]
  | .each header body line =>
      rw [toTree, forms.reread_write]
      simp only [Json.rereadItems, Json.reread_ofNat, Tree.reread, header.reread_toTree reads.1,
        reread_toTrees body reads.2.1]
  | .counted header body line =>
      rw [toTree, forms.reread_write]
      simp only [Json.rereadItems, Json.reread_ofNat, Tree.reread, header.reread_toTree reads.1,
        reread_toTrees body reads.2.1]
  | .whilst test body line =>
      rw [toTree, forms.reread_write]
      simp only [Json.rereadItems, Json.reread_ofNat, Tree.reread, test.reread_toTree reads.1,
        reread_toTrees body reads.2.1]
  | .yield block part line | .openSection block part line =>
      rw [toTree, forms.reread_write]
      simp only [Json.rereadItems, Json.reread_ofNat, block.reread_toTree reads.1,
        optional_expr_reread_tree part reads.2.1]

theorem reread_toTrees (nodes : List Node) (reads : EachOf floatsReadBack nodes) :
    Json.rereadItems (toTrees nodes) = toTrees nodes := by
  cases nodes with
  | nil => rfl
  | cons node rest =>
      rw [toTrees, Json.rereadItems, reread_toTree node reads.1, reread_toTrees rest reads.2]

theorem reread_toBranchTrees (branches : List (Expr × List Node))
    (reads : EachBranch floatsReadBack branches) :
    Json.rereadItems (toBranchTrees branches) = toBranchTrees branches := by
  match branches with
  | [] => rfl
  | (test, body) :: rest =>
      rw [toBranchTrees, Json.rereadItems, Json.reread_record, reread_toBranchTrees rest reads.2.2]
      simp only [Json.rereadItems, Tree.reread, test.reread_toTree reads.1, reread_toTrees body reads.2.1]
end

mutual
theorem reread_self (node : Node)
    (same : node.Each readBack) :
    node.reread? = some node := by
  match node with
  | .text _ | .comment _ => rfl
  | .closeSection mode line => rw [reread?, Nat.mod_eq_of_lt same]
  | .echo test line | .extend test line | .insert test line =>
      rw [reread?, test.reread_self same.1, Nat.mod_eq_of_lt same.2]
      rfl
  | .conditional branches none line =>
      rw [reread?, rereadBranches_self branches same.1, Nat.mod_eq_of_lt same.2]
      rfl
  | .conditional branches (some otherwise) line =>
      rw [reread?, rereadBranches_self branches same.1, rereads_self otherwise same.2.1,
        Nat.mod_eq_of_lt same.2.2]
      rfl
  | .each header body line =>
      rw [reread?, header.reread_self same.1, rereads_self body same.2.1, Nat.mod_eq_of_lt same.2.2]
      rfl
  | .counted header body line =>
      rw [reread?, header.reread_self same.1, rereads_self body same.2.1, Nat.mod_eq_of_lt same.2.2]
      rfl
  | .whilst test body line =>
      rw [reread?, test.reread_self same.1, rereads_self body same.2.1, Nat.mod_eq_of_lt same.2.2]
      rfl
  | .yield block part line | .openSection block part line =>
      rw [reread?, block.reread_self same.1, optional_expr_self part same.2.1,
        Nat.mod_eq_of_lt same.2.2]
      rfl

theorem rereads_self (nodes : List Node)
    (same : EachOf readBack nodes) :
    rereads? nodes = some nodes := by
  cases nodes with
  | nil => rfl
  | cons node rest =>
      rw [rereads?, reread_self node same.1, rereads_self rest same.2]
      rfl

theorem rereadBranches_self (branches : List (Expr × List Node))
    (same : EachBranch readBack branches) :
    rereadBranches? branches = some branches := by
  match branches with
  | [] => rfl
  | (test, body) :: rest =>
      rw [rereadBranches?, test.reread_self same.1, rereads_self body same.2.1,
        rereadBranches_self rest same.2.2]
      rfl
end

mutual
theorem wellFormed_ofTree (nested : Bool) (tree : Tree) (node : Node)
    (read : ofTree? nested tree = some node) : node.Each wellFormed := by
  rw [ofTree?] at read
  simp only [Option.bind_eq_bind, Option.bind_eq_some_iff] at read
  obtain ⟨⟨form, parts⟩, _, read⟩ := read
  split at read
  all_goals simp only [Option.bind_eq_some_iff, Option.pure_def, Option.some.injEq, reduceCtorEq] at read
  · obtain ⟨content, _, rfl⟩ := read
    trivial
  · obtain ⟨content, _, rfl⟩ := read
    trivial
  · obtain ⟨expression, inner, line, place, rfl⟩ := read
    exact ⟨Expr.ordered_ofTree _ expression inner, Json.natural_lt _ line place⟩
  · obtain ⟨branches, inner, line, place, rfl⟩ := read
    exact ⟨wellFormed_branchArray _ branches inner, Json.natural_lt _ line place⟩
  · obtain ⟨branches, inner, otherwise, last, line, place, rfl⟩ := read
    exact ⟨wellFormed_branchArray _ branches inner, wellFormed_ofArray _ otherwise last,
      Json.natural_lt _ line place⟩
  · obtain ⟨header, first, body, inner, line, place, rfl⟩ := read
    exact ⟨header.ordered_ofTree _ first, wellFormed_ofArray _ body inner, Json.natural_lt _ line place⟩
  · obtain ⟨header, first, body, inner, line, place, rfl⟩ := read
    exact ⟨header.ordered_ofTree _ first, wellFormed_ofArray _ body inner, Json.natural_lt _ line place⟩
  · obtain ⟨test, first, body, inner, line, place, rfl⟩ := read
    exact ⟨Expr.ordered_ofTree _ test first, wellFormed_ofArray _ body inner, Json.natural_lt _ line place⟩
  · obtain ⟨template, inner, line, place, rfl⟩ := read
    exact ⟨Expr.ordered_ofTree _ template inner, Json.natural_lt _ line place⟩
  · obtain ⟨template, inner, line, place, rfl⟩ := read
    exact ⟨Expr.ordered_ofTree _ template inner, Json.natural_lt _ line place⟩
  · obtain ⟨block, inner, default, last, line, place, rfl⟩ := read
    exact ⟨Expr.ordered_ofTree _ block inner, optional_expr_ordered _ default last,
      Json.natural_lt _ line place⟩
  · obtain ⟨block, inner, inline, last, line, place, rfl⟩ := read
    exact ⟨Expr.ordered_ofTree _ block inner, optional_expr_ordered _ inline last,
      Json.natural_lt _ line place⟩
  · obtain ⟨mode, _, line, place, rfl⟩ := read
    exact Json.natural_lt _ line place
termination_by sizeOf tree

theorem wellFormed_ofArray (tree : Tree) (nodes : List Node) (read : ofArray? tree = some nodes) :
    EachOf wellFormed nodes := by
  cases tree with
  | array trees =>
      rw [ofArray?] at read
      exact wellFormed_ofTrees trees nodes read
  | _ => simp [ofArray?] at read
termination_by sizeOf tree

theorem wellFormed_ofTrees (trees : List Tree) (nodes : List Node) (read : ofTrees? trees = some nodes) :
    EachOf wellFormed nodes := by
  cases trees with
  | nil =>
      rw [ofTrees?] at read
      obtain rfl := Option.some.inj read
      trivial
  | cons tree rest =>
      rw [ofTrees?] at read
      simp only [Option.bind_eq_bind, Option.bind_eq_some_iff, Option.pure_def, Option.some.injEq] at read
      obtain ⟨node, first, others, later, rfl⟩ := read
      exact ⟨wellFormed_ofTree true tree node first, wellFormed_ofTrees rest others later⟩
termination_by sizeOf trees

theorem wellFormed_branchArray (tree : Tree) (branches : List (Expr × List Node))
    (read : branchArray? tree = some branches) :
    EachBranch wellFormed branches := by
  cases tree with
  | array trees =>
      rw [branchArray?] at read
      exact wellFormed_branches trees branches read
  | _ => simp [branchArray?] at read
termination_by sizeOf tree

theorem wellFormed_branches (trees : List Tree) (branches : List (Expr × List Node))
    (read : branches? trees = some branches) :
    EachBranch wellFormed branches := by
  cases trees with
  | nil =>
      rw [branches?] at read
      obtain rfl := Option.some.inj read
      trivial
  | cons tree rest =>
      rw [branches?] at read
      simp only [Option.bind_eq_bind, Option.bind_eq_some_iff, Option.pure_def, Option.some.injEq] at read
      obtain ⟨⟨test, body⟩, first, others, later, rfl⟩ := read
      have branch := wellFormed_branch tree test body first
      exact ⟨branch.1, branch.2, wellFormed_branches rest others later⟩
termination_by sizeOf trees

theorem wellFormed_branch (tree : Tree) (test : Expr) (body : List Node)
    (read : branch? tree = some (test, body)) :
    test.Each Value.Ordered ∧ EachOf wellFormed body := by
  rw [branch?] at read
  simp only [Option.bind_eq_bind, Option.bind_eq_some_iff] at read
  obtain ⟨parts, _, read⟩ := read
  split at read
  all_goals simp only [Option.bind_eq_some_iff, Option.pure_def, Option.some.injEq, reduceCtorEq,
    Prod.mk.injEq] at read
  obtain ⟨test, first, body, inner, rfl, rfl⟩ := read
  exact ⟨Expr.ordered_ofTree _ test first, wellFormed_ofArray _ body inner⟩
termination_by sizeOf tree
end

end Node

namespace Program

def WellFormed (program : Program) : Prop :=
  Node.EachOf Node.wellFormed program.nodes

def FloatsReadBack (program : Program) : Prop :=
  Node.EachOf Node.floatsReadBack program.nodes

def rereadRoot? (node : Node) : Option Node := if node.toTree.reread.isReadable then node.reread? else none

theorem toTrees_eq_map (nodes : List Node) : Node.toTrees nodes = nodes.map Node.toTree := by
  induction nodes with
  | nil => rfl
  | cons node rest ih => rw [Node.toTrees, List.map_cons, ih]

theorem rootNode_reread (node : Node) : rootNode? node.toTree.reread = rereadRoot? node := by
  rw [rootNode?, rereadRoot?, Node.ofTree_reread]

theorem ofCode_code (program : Program) :
    ofCode? program.code = (do
      let nodes ← program.nodes.mapM rereadRoot?
      if program.format = currentFormat then some ⟨program.format, program.template, nodes⟩ else none) := by
  have readable : program.toTree.isReadable = true := by
    apply Json.isReadable_record
    simp only [Json.allReadable, Tree.isReadable, Node.isReadable_toTrees, Bool.and_self]
  obtain ⟨_, read⟩ := Json.record_reread fields
    [.string program.format, .string program.template, .array (Node.toTrees program.nodes)]
    (by decide +kernel) rfl
  have nodes := list_reread Node.toTree rootNode? rereadRoot? rootNode_reread program.nodes
  rw [← toTrees_eq_map] at nodes
  rw [ofCode?, code, Tree.ofText_text _ readable, toTree]
  simp only [Option.bind_eq_bind, Option.bind_some, ofTree?, read, Json.rereadItems, List.attachWith,
    List.pmap, nodes]
  cases program.nodes.mapM rereadRoot? <;> rfl

theorem rereadRoot_self (node : Node) (wellFormed : node.Each Node.wellFormed)
    (reads : node.Each Node.floatsReadBack) : rereadRoot? node = some node := by
  have same : node.Each Node.readBack :=
    node.each_both _ _ _ (Node.Standard.join_literals _ _ _ _ _ _ Value.reread_self fun _ bound _ => bound)
      wellFormed reads
  rw [rereadRoot?, Node.reread_toTree node reads, Node.isReadable_toTree, if_pos rfl,
    Node.reread_self node same]

theorem rereadRoots_self (nodes : List Node)
    (wellFormed : Node.EachOf Node.wellFormed nodes)
    (reads : Node.EachOf Node.floatsReadBack nodes) :
    nodes.mapM rereadRoot? = some nodes := by
  induction nodes with
  | nil => rfl
  | cons node rest ih =>
      rw [List.mapM_cons, rereadRoot_self node wellFormed.1 reads.1, ih wellFormed.2 reads.2]
      rfl

theorem ofCode_code_self (program : Program) (format : program.format = currentFormat)
    (wellFormed : program.WellFormed) (reads : program.FloatsReadBack) :
    ofCode? program.code = some program := by
  rw [ofCode_code, rereadRoots_self program.nodes wellFormed reads, Option.bind_eq_bind, Option.bind_some,
    if_pos format]

theorem wellFormed_roots (trees : List Tree) (nodes : List Node) (read : trees.mapM rootNode? = some nodes) :
    Node.EachOf Node.wellFormed nodes := by
  induction trees generalizing nodes with
  | nil =>
      obtain rfl := Option.some.inj read
      trivial
  | cons tree rest ih =>
      simp only [List.mapM_cons, Option.bind_eq_bind, Option.bind_eq_some_iff, Option.pure_def,
        Option.some.injEq] at read
      obtain ⟨node, first, others, later, rfl⟩ := read
      rw [rootNode?] at first
      split at first
      · exact ⟨Node.wellFormed_ofTree false tree node first, ih others later⟩
      · simp at first

theorem wellFormed_list (tree : Tree) (nodes : List Node) (read : list? rootNode? tree = some nodes) :
    Node.EachOf Node.wellFormed nodes := by
  cases tree with
  | array trees => exact wellFormed_roots trees nodes read
  | _ => simp [list?] at read

theorem wellFormed_ofCode (code : String) (program : Program) (read : ofCode? code = some program) :
    program.format = currentFormat ∧ program.WellFormed := by
  simp only [ofCode?, ofTree?, Option.bind_eq_bind, Option.bind_eq_some_iff] at read
  obtain ⟨tree, _, found, ⟨parts, _, parsed⟩, read⟩ := read
  split at read
  · rename_i format
    obtain rfl := Option.some.inj read
    refine ⟨format, ?_⟩
    split at parsed
    all_goals simp only [Option.bind_eq_some_iff, Option.pure_def, Option.some.injEq, reduceCtorEq] at parsed
    obtain ⟨format, _, template, _, nodes, inner, rfl⟩ := parsed
    exact wellFormed_list _ nodes inner
  · simp at read

/-- Every program of the format that the code can hold is read back from its code, and whatever is read from
a text is such a program. -/
theorem code_round_trip (program : Program) :
    (program.format = currentFormat → program.WellFormed → program.FloatsReadBack →
      ofCode? program.code = some program) ∧
    ∀ code, ofCode? code = some program → program.format = currentFormat ∧
      (program.FloatsReadBack → ofCode? program.code = some program) := by
  refine ⟨ofCode_code_self program, fun code read => ?_⟩
  obtain ⟨format, wellFormed⟩ := wellFormed_ofCode code program read
  exact ⟨format, ofCode_code_self program format wellFormed⟩

def sample : Program where
  format := currentFormat
  template := "page \"é\"\x00"
  nodes :=
    [.text "line\n\\ \x7f\x1f",
     .comment "seen",
     .extend (.literal (.string "base")) 1,
     .conditional
       [(.isset (.var "a"), [.echo (.call "e" [.member (.var "a") "b"]) 2]),
        (.unary .not (.empty (.index (.var "a") (.literal (.ofNat 0)))), [])]
       (some [.insert (.choice (.var "c") (.literal .null) (.array [.var "d"])) 4]) 2,
     .conditional [(.elvis (.var "a") (.coalesce (.var "b") (.var "c")), [])] none 5,
     .each ⟨.literal (.object [("k", .list [.bool true, .number (.float 1.5 (by decide +kernel))])]),
       some "key", "v"⟩ [.text "x"] 6,
     .counted ⟨[.set "i" (.literal (.ofNat 0)), .add "j" (.literal (.ofNat 1)), .sub "j" (.literal (.ofNat 1))],
       some (.binary .lt (.var "i") (.literal (.ofNat 3))), [.increment "i", .decrement "j"]⟩ [] 7,
     .whilst (.literal (.bool false)) [.yield (.literal (.string "t")) (some (.literal .null)) 9] 8,
     .yield (.literal (.string "t")) none 9,
     .openSection (.literal (.string "s")) none 18446744073709551615,
     .closeSection .overwrite 10,
     .openSection (.literal (.string "s")) (some (.var "x")) 11,
     .closeSection .append 12, .closeSection .show 13]

theorem sample_wellFormed : sample.WellFormed := by
  simp [WellFormed, sample, Node.Standard.literals, Node.EachOf, Node.Each, Node.EachBranch, Expr.Each, Expr.EachOf,
    Assignment.Each, EachHeader.Each, ForHeader.Each, Value.Ordered, Value.OrderedFields,
    Value.OrderedItems, Fields.Ordered, Value.ofNat, Decimal.wordLimit]

theorem sample_double : (Number.float 1.5 (by decide +kernel)).reread?
    = some (.float 1.5 (by decide +kernel)) := by
  decide +kernel

theorem sample_floatsReadBack : sample.FloatsReadBack := by
  simp [FloatsReadBack, sample, Node.Standard.literals, Node.EachOf, Node.Each, Node.EachBranch, Expr.Each, Expr.EachOf,
    Assignment.Each, EachHeader.Each, ForHeader.Each, Value.FloatsReadBack, Value.FloatsReadBackFields,
    Value.FloatsReadBackItems, Value.ofNat, Number.FloatReadsBack, sample_double, Number.ofNat]

theorem sample_round_trip : ofCode? sample.code = some sample ∧ sample.format = currentFormat := by
  have read := (code_round_trip sample).1 rfl sample_wellFormed sample_floatsReadBack
  exact ⟨read, ((code_round_trip sample).2 sample.code read).1⟩

end Program

end Stencil
