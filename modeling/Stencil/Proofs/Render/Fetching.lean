import Stencil.Proofs.Render.Chain

set_option autoImplicit false

namespace Stencil.Renderer

open Run (read inSession inCache)

section Over

variable {σ : Type} (limits : Limits) (fetch : String → Action (Cache σ) Program)

-- The renderer with its cache as a parameter: one that takes its programs from elsewhere may do more than that each time.
def insertOver (left : Nat) (name : String) (vars : Fields) : Action (Run σ) Unit := do
  match left with
  | 0 => throw (.tooDeep .inclusion limits.includeDepth name)
  | left + 1 =>
      let program ← inCache (fetch name)
      let floor := (← get).session.height
      let scope : Scope σ := ⟨name, floor, limits, insertOver left⟩
      let _ ← inserted (scope.runNodes program.nodes vars)
      read (Session.checkClosed name floor)

def runTemplateOver (name : String) (data : Fields) : Action (Run σ) Unit := do
  let program ← inCache (fetch name)
  let floor := (← get).session.height + 1
  inSession fun session => { session with contentClaimed := false }.openFrame contentBlock true
  let scope : Scope σ := ⟨name, floor, limits, insertOver limits fetch limits.includeDepth⟩
  let _ ← scope.runNodes program.nodes data
  read (Session.checkClosed name floor)
  let session ← read closeContent
  inSession fun _ => session

def runLinkOver (data : Fields) (follow : String → Action (Run σ) Unit) (name : String) : Action (Run σ) Unit := do
  inSession fun session => { session with chain := session.chain ++ [name] }
  runTemplateOver limits fetch name data
  let parent := (← get).session.parent
  inSession fun session => { session with parent := none }
  match parent with
  | none => return ()
  | some next => follow next

def runChainOver (data : Fields) (left : Nat) (name : String) : Action (Run σ) Unit := fun run =>
  if run.session.chain.contains name then .error (.cycle (run.session.chain ++ [name])) run
  else
    match left with
    | 0 => .error (.tooDeep .inheritance limits.inheritanceDepth name) run
    | left + 1 => runLinkOver limits fetch data (runChainOver data left) name run

def renderOver (name : String) (data : Fields) : Action (Cache σ) String := fun cache =>
  match runChainOver limits fetch data (limits.inheritanceDepth + 1) name ⟨cache, .start⟩ with
  | .ok _ run => .ok ((run.session.blocks.get? contentBlock).getD "") run.cache
  | .error error run => .error error run.cache

end Over

section Cached

variable {σ : Type} [Store σ] (renderer : Renderer)

theorem insert_over (left : Nat) : (renderer.insert left : String → Fields → Action (Run σ) Unit)
    = insertOver renderer.limits (Cache.ensureFresh renderer.compiler) left := by
  induction left with
  | zero => rfl
  | succ left ih =>
      funext name vars
      rw [insert, insertOver, ih]

theorem runTemplate_over (name : String) (data : Fields) : (renderer.runTemplate name data : Action (Run σ) Unit)
    = runTemplateOver renderer.limits (Cache.ensureFresh renderer.compiler) name data := by
  rw [runTemplate, runTemplateOver, insert_over]

theorem runChain_over (data : Fields) (left : Nat) (name : String) :
    (renderer.runChain data left name : Action (Run σ) Unit)
      = runChainOver renderer.limits (Cache.ensureFresh renderer.compiler) data left name := by
  induction left generalizing name with
  | zero =>
      funext run
      rw [runChain_zero, runChainOver]
  | succ left ih =>
      funext run
      rewrite [runChain_succ, runChainOver, runLink, runLinkOver, runTemplate_over, funext ih]
      rfl

theorem render_over (name : String) (data : Fields) : (renderer.render name data : Action (Cache σ) String)
    = renderOver renderer.limits (Cache.ensureFresh renderer.compiler) name data := by
  funext cache
  rewrite [render, renderOver, runChain_over]
  rfl

end Cached

end Stencil.Renderer
