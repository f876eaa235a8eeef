import Stencil.Proofs.Program.Code
import Stencil.Proofs.Template.Comments

set_option autoImplicit false

namespace Stencil

open Template
open Json (Tree allReadable allReadableMembers rereadItems reread_record)

theorem Json.readable_zip (names : List String) (parts : List Tree) (count : parts.length = names.length) :
    allReadableMembers (names.zip parts) = allReadable parts := by
  induction names generalizing parts with
  | nil =>
      obtain rfl := List.eq_nil_of_length_eq_zero count
      rfl
  | cons name names ih =>
      cases parts with
      | nil => cases count
      | cons part parts => rw [List.zip_cons_cons, allReadableMembers, allReadable, ih parts (Nat.succ.inj count)]

theorem Json.readable_record (fields : List Field) (parts : List Tree) (count : parts.length = fields.length) :
    (Tree.record fields parts).isReadable = allReadable parts := by
  rw [Tree.record, Tree.isReadable, readable_zip _ _ (count.trans (List.length_map _).symm)]

theorem Json.Variant.readable_write {Form : Type} (variant : Variant Form) (form : Form) (parts : List Tree)
    (count : parts.length = (variant.fields form).length) : (variant.write form parts).isReadable = allReadable parts := by
  rw [write, Tree.isReadable, allReadableMembers, readable_zip _ _ (count.trans (List.length_map _).symm)]
  rfl

namespace Node

mutual
def muted : Node → Node
  | .comment _ => .comment ""
  | .conditional branches none line => .conditional (muteBranches branches) none line
  | .conditional branches (some otherwise) line => .conditional (muteBranches branches) (some (muteNodes otherwise)) line
  | .each header body line => .each header (muteNodes body) line
  | .counted header body line => .counted header (muteNodes body) line
  | .whilst test body line => .whilst test (muteNodes body) line
  | node => node

def muteNodes : List Node → List Node
  | [] => []
  | node :: rest => node.muted :: muteNodes rest

def muteBranches : List (Expr × List Node) → List (Expr × List Node)
  | [] => []
  | (test, body) :: rest => (test, muteNodes body) :: muteBranches rest
end

theorem muteNodes_eq_map (nodes : List Node) : muteNodes nodes = nodes.map muted := by
  induction nodes with
  | nil => rfl
  | cons node rest ih => rw [muteNodes, List.map_cons, ih]

theorem muteNodes_reverse (nodes : List Node) : muteNodes nodes.reverse = (muteNodes nodes).reverse := by
  rw [muteNodes_eq_map, muteNodes_eq_map, List.map_reverse]

theorem muteBranches_eq_map (branches : List (Expr × List Node)) :
    muteBranches branches = branches.map fun (test, body) => (test, muteNodes body) := by
  induction branches with
  | nil => rfl
  | cons branch rest ih => rw [muteBranches, List.map_cons, ih]

theorem muteBranches_reverse (branches : List (Expr × List Node)) :
    muteBranches branches.reverse = (muteBranches branches).reverse := by
  rw [muteBranches_eq_map, muteBranches_eq_map, List.map_reverse]

end Node

open Node (muteNodes muteBranches)

theorem muteNodes_addNode (node : Node) (body : List Node) :
    muteNodes (addNode node body) = addNode node.muted (muteNodes body) := by
  cases node with
  | text content =>
      cases body with
      | nil => rfl
      | cons first rest =>
          cases first with
          | conditional branches otherwise line => cases otherwise <;> rfl
          | _ => rfl
  | conditional branches otherwise line => cases otherwise <;> rfl
  | _ => rfl

def Open.muted : Open → Open
  | .conditional kind branches test body line => .conditional kind (muteBranches branches) test (muteNodes body) line
  | .loop head body line => .loop head (muteNodes body) line

def Program.muted (program : Program) : Program := { program with nodes := muteNodes program.nodes }

namespace Assembly

def muted (state : Assembly) : Assembly := ⟨muteNodes state.root, state.blocks.map Open.muted⟩

variable (state : Assembly)

theorem muted_push (node : Node) : (state.push node).muted = state.muted.push node.muted := by
  obtain ⟨root, blocks⟩ := state
  cases blocks with
  | nil => exact congrArg (Assembly.mk · []) (muteNodes_addNode node root)
  | cons block outer =>
      cases block with
      | conditional kind branches test body line =>
          simp only [push, muted, List.map_cons, Open.muted, muteNodes_addNode]
      | loop head body line => simp only [push, muted, List.map_cons, Open.muted, muteNodes_addNode]

theorem muted_openBlock (block : Open) : (state.openBlock block).map muted = state.muted.openBlock block.muted := by
  have level : state.muted.blocks.length = state.blocks.length := List.length_map _
  rw [openBlock, openBlock, level]
  split
  · rfl
  · rfl

theorem muted_nextBranch (test : Expr) : (state.nextBranch test).map muted = state.muted.nextBranch test := by
  obtain ⟨root, blocks⟩ := state
  cases blocks with
  | nil => rfl
  | cons block outer =>
      cases block with
      | loop head body line => rfl
      | conditional kind branches test body line =>
          cases kind with
          | negated => rfl
          | affirmed =>
              cases test with
              | none => rfl
              | some done =>
                  simp only [nextBranch, muted, Except.map, List.map_cons, Open.muted, muteBranches,
                    Node.muteNodes_reverse, muteNodes]

theorem muted_lastBranch : state.lastBranch.map muted = state.muted.lastBranch := by
  obtain ⟨root, blocks⟩ := state
  cases blocks with
  | nil => rfl
  | cons block outer =>
      cases block with
      | loop head body line => rfl
      | conditional kind branches test body line =>
          cases test with
          | none => rfl
          | some done =>
              simp only [lastBranch, muted, Except.map, List.map_cons, Open.muted, muteBranches, Node.muteNodes_reverse,
                muteNodes]

theorem muted_conditionalNode (branches : List (Expr × List Node)) (test : Option Expr) (body : List Node) (line : Nat) :
    (conditionalNode branches test body line).muted
      = conditionalNode (muteBranches branches) test (muteNodes body) line := by
  cases test with
  | some test =>
      simp only [conditionalNode, Node.muted, Node.muteBranches_reverse, muteBranches, Node.muteNodes_reverse]
  | none => simp only [conditionalNode, Node.muted, Node.muteBranches_reverse, Node.muteNodes_reverse]

theorem muted_closeConditional (d : Directive) :
    (state.closeConditional d).map muted = state.muted.closeConditional d := by
  obtain ⟨root, blocks⟩ := state
  cases blocks with
  | nil => rfl
  | cons block outer =>
      cases block with
      | loop head body line => rfl
      | conditional kind branches test body line =>
          have pushed := muted_push ⟨root, outer⟩ (conditionalNode branches test body line)
          rw [muted_conditionalNode] at pushed
          simp only [closeConditional, muted, List.map_cons, Open.muted] at pushed ⊢
          split
          · exact congrArg Except.ok pushed
          · rfl

theorem muted_node (head : LoopHead) (body : List Node) (line : Nat) :
    (head.node body line).muted = head.node (muteNodes body) line := by
  cases head <;> rfl

theorem muted_closeLoop (d : Directive) : (state.closeLoop d).map muted = state.muted.closeLoop d := by
  obtain ⟨root, blocks⟩ := state
  cases blocks with
  | nil => rfl
  | cons block outer =>
      cases block with
      | conditional kind branches test body line => rfl
      | loop head body line =>
          have pushed := muted_push ⟨root, outer⟩ (head.node body.reverse line)
          rw [muted_node, Node.muteNodes_reverse] at pushed
          simp only [closeLoop, muted, List.map_cons, Open.muted] at pushed ⊢
          split
          · exact congrArg Except.ok pushed
          · rfl

theorem muted_directive (d : Directive) (args : Option (List Char)) (line : Nat) :
    (state.directive d args line).map muted = state.muted.directive d args line := by
  simp only [directive, bind, Except.bind]
  cases insideOf d args with
  | error fault => rfl
  | ok inside =>
      dsimp only
      cases d.role with
      | openConditional kind =>
          dsimp only
          cases inPlace (.directive d) (Expr.parse inside) with
          | error fault => rfl
          | ok test => exact muted_openBlock state _
      | nextBranch =>
          dsimp only
          cases inPlace (.directive d) (Expr.parse inside) with
          | error fault => rfl
          | ok test => exact muted_nextBranch state test
      | lastBranch => exact muted_lastBranch state
      | closeConditional => exact muted_closeConditional state d
      | openLoop kind =>
          dsimp only
          cases loopHead d kind inside with
          | error fault => rfl
          | ok head => exact muted_openBlock state _
      | closeLoop kind => exact muted_closeLoop state d
      | extend | insert =>
          dsimp only
          cases oneArgument d inside with
          | error fault => rfl
          | ok e => exact congrArg Except.ok (muted_push state _)
      | yield | openSection =>
          dsimp only
          cases oneOrTwoArguments d inside with
          | error fault => rfl
          | ok parts => exact congrArg Except.ok (muted_push state _)
      | closeSection mode => exact congrArg Except.ok (muted_push state _)

theorem muted_add (piece : Piece) : (state.add piece).map muted = state.muted.add piece.muted := by
  cases piece with
  | text content line => exact congrArg Except.ok (muted_push state _)
  | comment content line => exact congrArg Except.ok (muted_push state _)
  | echo source expression line =>
      simp only [add, Piece.muted]
      cases Expr.parse expression with
      | error fault => rfl
      | ok e => exact congrArg Except.ok (muted_push state _)
  | directive d args line =>
      simp only [add, Piece.muted, ← muted_directive state d args line]
      cases state.directive d args line <;> rfl

theorem muted_addAll (pieces : List Piece) :
    (state.addAll pieces).map muted = state.muted.addAll (Template.mutePieces pieces) := by
  induction pieces generalizing state with
  | nil => rfl
  | cons piece rest ih =>
      rw [Template.mutePieces_cons, addAll, addAll, ← muted_add state piece]
      cases state.add piece with
      | error fault => rfl
      | ok next => exact ih next

theorem muted_finish : state.finish.map muteNodes = state.muted.finish := by
  obtain ⟨root, blocks⟩ := state
  cases blocks with
  | nil => exact congrArg Except.ok (Node.muteNodes_reverse root)
  | cons block outer => cases block <;> rfl

end Assembly

theorem Program.muted_assemble (template : String) (pieces : List Piece) :
    (assemble template pieces).map muted = assemble template (Template.mutePieces pieces) := by
  have added := Assembly.muted_addAll .empty pieces
  have start : Assembly.empty.muted = .empty := rfl
  rw [start] at added
  rw [assemble, assemble, ← added]
  cases Assembly.empty.addAll pieces with
  | error fault => rfl
  | ok state =>
      have finished := state.muted_finish
      simp only [bind, Except.bind, Except.map] at finished ⊢
      rw [← finished]
      cases state.finish <;> rfl

theorem Program.muted_compile (format : EchoFormat) (template : String) (text : List Char) :
    (compile format template (String.ofList text)).map muted
      = (Template.pieces format text).map Template.mutePieces >>= assemble template := by
  rw [compile, String.toList_ofList]
  cases Template.pieces format text with
  | error fault => rfl
  | ok pieces => exact muted_assemble template pieces

theorem Program.compile_commented (format : EchoFormat) (template : String) (before comment comment' after : List Char)
    (ended : CommentsEnd before) (closed : ¬ commentCloser <:+: comment) (closed' : ¬ commentCloser <:+: comment')
    (lines : Text.breaks comment = Text.breaks comment') :
    (compile format template (String.ofList (commented before comment after))).map muted
      = (compile format template (String.ofList (commented before comment' after))).map muted := by
  rw [muted_compile, muted_compile, pieces_commented format before comment comment' after ended closed closed' lines]

namespace Node

mutual
theorem reread_muted (node : Node) : node.muted.reread? = node.reread?.map muted := by
  match node with
  | .text _ | .comment _ | .closeSection _ _ => rfl
  | .echo e line | .extend e line | .insert e line =>
      simp only [muted, reread?]
      cases e.reread? <;> rfl
  | .conditional branches none line =>
      simp only [muted, reread?, rereadBranches_mute branches]
      cases rereadBranches? branches <;> rfl
  | .conditional branches (some otherwise) line =>
      simp only [muted, reread?, rereadBranches_mute branches, rereads_mute otherwise]
      cases rereadBranches? branches with
      | none => rfl
      | some branches => cases rereads? otherwise <;> rfl
  | .each header body line =>
      simp only [muted, reread?, rereads_mute body]
      cases header.reread? with
      | none => rfl
      | some header => cases rereads? body <;> rfl
  | .counted header body line =>
      simp only [muted, reread?, rereads_mute body]
      cases header.reread? with
      | none => rfl
      | some header => cases rereads? body <;> rfl
  | .whilst test body line =>
      simp only [muted, reread?, rereads_mute body]
      cases test.reread? with
      | none => rfl
      | some test => cases rereads? body <;> rfl
  | .yield block part line | .openSection block part line =>
      simp only [muted, reread?]
      cases block.reread? with
      | none => rfl
      | some block => cases part.mapM Expr.reread? <;> rfl

theorem rereads_mute (nodes : List Node) : rereads? (muteNodes nodes) = (rereads? nodes).map muteNodes := by
  match nodes with
  | [] => rfl
  | node :: rest =>
      simp only [muteNodes, rereads?, reread_muted node, rereads_mute rest]
      cases node.reread? with
      | none => rfl
      | some node => cases rereads? rest <;> rfl

theorem rereadBranches_mute (branches : List (Expr × List Node)) :
    rereadBranches? (muteBranches branches) = (rereadBranches? branches).map muteBranches := by
  match branches with
  | [] => rfl
  | (test, body) :: rest =>
      simp only [muteBranches, rereadBranches?, rereads_mute body, rereadBranches_mute rest]
      cases test.reread? with
      | none => rfl
      | some test =>
          cases rereads? body with
          | none => rfl
          | some body => cases rereadBranches? rest <;> rfl
end

mutual
theorem isReadable_muted (node : Node) : node.muted.toTree.reread.isReadable = node.toTree.reread.isReadable := by
  match node with
  | .text _ | .closeSection _ _ | .echo _ _ | .extend _ _ | .insert _ _ | .yield _ _ _ | .openSection _ _ _ => rfl
  | .comment content =>
      simp only [muted, toTree, forms.reread_write, rereadItems, Tree.reread]
      rw [forms.readable_write _ _ rfl, forms.readable_write _ _ rfl]
      rfl
  | .conditional branches none line =>
      simp only [muted, toTree, forms.reread_write, rereadItems, Tree.reread]
      rw [forms.readable_write _ _ rfl, forms.readable_write _ _ rfl]
      simp only [allReadable, Tree.isReadable, readable_muteBranches branches]
  | .conditional branches (some otherwise) line =>
      simp only [muted, toTree, forms.reread_write, rereadItems, Tree.reread]
      rw [forms.readable_write _ _ rfl, forms.readable_write _ _ rfl]
      simp only [allReadable, Tree.isReadable, readable_muteBranches branches, readable_muteNodes otherwise]
  | .each header body line | .counted header body line | .whilst header body line =>
      simp only [muted, toTree, forms.reread_write, rereadItems, Tree.reread]
      rw [forms.readable_write _ _ rfl, forms.readable_write _ _ rfl]
      simp only [allReadable, Tree.isReadable, readable_muteNodes body]

theorem readable_muteNodes (nodes : List Node) :
    allReadable (rereadItems (toTrees (muteNodes nodes))) = allReadable (rereadItems (toTrees nodes)) := by
  match nodes with
  | [] => rfl
  | node :: rest =>
      simp only [muteNodes, toTrees, rereadItems, allReadable, isReadable_muted node, readable_muteNodes rest]

theorem readable_muteBranches (branches : List (Expr × List Node)) :
    allReadable (rereadItems (toBranchTrees (muteBranches branches)))
      = allReadable (rereadItems (toBranchTrees branches)) := by
  match branches with
  | [] => rfl
  | (test, body) :: rest =>
      simp only [muteBranches, toBranchTrees, rereadItems, allReadable, reread_record, readable_muteBranches rest]
      rw [Json.readable_record _ _ rfl, Json.readable_record _ _ rfl]
      simp only [allReadable, Tree.reread, Tree.isReadable, readable_muteNodes body]
end

end Node

namespace Program

theorem rereadRoot_muted (node : Node) : rereadRoot? node.muted = (rereadRoot? node).map Node.muted := by
  rw [rereadRoot?, rereadRoot?, node.isReadable_muted, node.reread_muted]
  cases node.toTree.reread.isReadable <;> rfl

theorem rereadRoots_mute (nodes : List Node) :
    (muteNodes nodes).mapM rereadRoot? = (nodes.mapM rereadRoot?).map muteNodes := by
  induction nodes with
  | nil => rfl
  | cons node rest ih =>
      simp only [muteNodes, List.mapM_cons, rereadRoot_muted node, ih]
      cases rereadRoot? node with
      | none => rfl
      | some node => cases rest.mapM rereadRoot? <;> rfl

theorem ofCode_muted (program : Program) : ofCode? program.muted.code = (ofCode? program.code).map muted := by
  rw [ofCode_code, ofCode_code, muted, rereadRoots_mute]
  cases program.nodes.mapM rereadRoot? with
  | none => rfl
  | some nodes =>
      simp only [Option.map_some, Option.bind_eq_bind, Option.bind_some]
      split <;> rfl

end Program

end Stencil
