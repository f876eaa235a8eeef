import Stencil.Proofs.Program.Comments
import Stencil.Proofs.Render.Fetching

set_option autoImplicit false

namespace Stencil

open Stencil.Node (muteNodes muteBranches)

namespace Scope

variable {σ : Type} (scope : Scope σ)

mutual
theorem runNode_muted (node : Node) : scope.runNode node.muted = scope.runNode node := by
  match node with
  | .text _ | .echo _ _ | .extend _ _ | .insert _ _ | .yield _ _ _ | .openSection _ _ _ | .closeSection _ _ => rfl
  | .comment content => rw [Node.muted, runNode, runNode]
  | .conditional branches none line => rw [Node.muted, runNode, runNode, runBranches_mute branches]
  | .conditional branches (some otherwise) line =>
      rw [Node.muted, runNode, runNode, runBranches_mute branches, runOtherwise, runOtherwise,
        runNodes_mute otherwise]
  | .each header body line | .counted header body line | .whilst header body line =>
      rw [Node.muted, runNode, runNode, runNodes_mute body]

theorem runNodes_mute (nodes : List Node) : scope.runNodes (muteNodes nodes) = scope.runNodes nodes := by
  match nodes with
  | [] => rfl
  | node :: rest => rw [muteNodes, runNodes, runNodes, runNode_muted node, runNodes_mute rest]

theorem runBranches_mute (branches : List (Expr × List Node)) (site : Site) (last : Body σ) :
    scope.runBranches site (muteBranches branches) last = scope.runBranches site branches last := by
  match branches with
  | [] => rfl
  | (test, body) :: rest =>
      rw [muteBranches, runBranches, runBranches, runNodes_mute body, runBranches_mute rest]
end

end Scope

namespace Renderer

variable {σ : Type} (limits : Limits) (fetch : String → Action (Cache σ) Program)

def muting (name : String) : Action (Cache σ) Program := Program.muted <$> fetch name

variable {fetch}

theorem bind_muting {α : Type} (name : String) (next : Program → Action (Run σ) α)
    (inert : ∀ program, next program.muted = next program) :
    (Run.inCache (muting fetch name) >>= next) = Run.inCache (fetch name) >>= next := by
  funext run
  simp only [bind, EStateM.bind, Run.inCache, muting, Functor.map, EStateM.map]
  cases fetch name run.cache with
  | error e cache => rfl
  | ok program cache => exact congrFun (inert program) _

theorem insertOver_muting (left : Nat) : insertOver limits (muting fetch) left = insertOver limits fetch left := by
  induction left with
  | zero =>
      funext name vars
      rw [insertOver, insertOver]
  | succ left ih =>
      funext name vars
      rw [insertOver, insertOver, ih]
      refine bind_muting name _ fun program => ?_
      simp only [Program.muted, Scope.runNodes_mute]

theorem runTemplateOver_muting (name : String) (data : Fields) :
    runTemplateOver limits (muting fetch) name data = runTemplateOver limits fetch name data := by
  rw [runTemplateOver, runTemplateOver, insertOver_muting]
  refine bind_muting name _ fun program => ?_
  simp only [Program.muted, Scope.runNodes_mute]

theorem runChainOver_muting (data : Fields) (left : Nat) :
    runChainOver limits (muting fetch) data left = runChainOver limits fetch data left := by
  induction left with
  | zero =>
      funext name run
      rw [runChainOver, runChainOver]
  | succ left ih =>
      funext name run
      rw [runChainOver, runChainOver]
      simp only [runLinkOver, runTemplateOver_muting, ih]

theorem renderOver_muting (name : String) (data : Fields) :
    renderOver limits (muting fetch) name data = renderOver limits fetch name data := by
  funext cache
  rw [renderOver, renderOver, runChainOver_muting]

end Renderer

end Stencil
