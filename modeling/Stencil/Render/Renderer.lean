import Stencil.Render.Execution

set_option autoImplicit false

namespace Stencil

structure Renderer where
  compiler : Compiler
  limits : Limits

namespace Renderer

variable {σ : Type} [Store σ]

open Run (lift read inSession inCache)

def inserted {α : Type} (action : Action (Run σ) α) : Action (Run σ) α := fun run =>
  let claimed := run.session.contentClaimed
  match action { run with session := run.session.deeper } with
  | .ok a after => .ok a { after with session := after.session.shallower claimed }
  | .error error after => .error error { after with session := after.session.shallower claimed }

-- Runs a template inside another one; `left` is how many more templates may be inserted in one
-- another.
def insert (renderer : Renderer) (left : Nat) (name : String) (vars : Fields) :
    Action (Run σ) Unit := do
  match left with
  | 0 => throw (.tooDeep .inclusion renderer.limits.includeDepth name)
  | left + 1 =>
      let program ← inCache (Cache.ensureFresh renderer.compiler name)
      let floor := (← get).session.height
      let scope : Scope σ := ⟨name, floor, renderer.limits, renderer.insert left⟩
      let _ ← inserted (scope.runNodes program.nodes vars)
      read (Session.checkClosed name floor)

def insertTemplate (renderer : Renderer) (name : String) (vars : Fields) : Action (Run σ) Unit := do
  renderer.insert (renderer.limits.includeDepth - (← get).session.includeDepth) name vars

def closeContent (session : Session) : Except ViewError Session :=
  match session.frames with
  | [] => .error .unbalancedEnd
  | frame :: outer =>
      let popped := { session with frames := outer }
      .ok (if session.contentClaimed then popped
        else popped.storeBlock contentBlock frame.buffer true)

def runTemplate (renderer : Renderer) (name : String) (data : Fields) : Action (Run σ) Unit := do
  let program ← inCache (Cache.ensureFresh renderer.compiler name)
  let floor := (← get).session.height + 1
  inSession fun session => { session with contentClaimed := false }.openFrame contentBlock true
  let scope : Scope σ := ⟨name, floor, renderer.limits, renderer.insert renderer.limits.includeDepth⟩
  let _ ← scope.runNodes program.nodes data
  read (Session.checkClosed name floor)
  let session ← read closeContent
  inSession fun _ => session

def runChain (renderer : Renderer) (data : Fields) (left : Nat) (name : String) :
    Action (Run σ) Unit := do
  let chain := (← get).session.chain
  if chain.contains name then throw (.cycle (chain ++ [name]))
  match left with
  | 0 => throw (.tooDeep .inheritance renderer.limits.inheritanceDepth name)
  | left + 1 =>
      inSession fun session => { session with chain := session.chain ++ [name] }
      renderer.runTemplate name data
      let parent := (← get).session.parent
      inSession fun session => { session with parent := none }
      match parent with
      | none => return ()
      | some next => renderer.runChain data left next

def render (renderer : Renderer) (name : String) (data : Fields) : Action (Cache σ) String :=
  fun cache =>
    match renderer.runChain data (renderer.limits.inheritanceDepth + 1) name ⟨cache, .start⟩ with
    | .ok _ run => .ok ((run.session.blocks.get? contentBlock).getD "") run.cache
    | .error error run => .error error run.cache

def retrieve (renderer : Renderer) (name : String) (data : Value) : Action (Cache σ) String :=
  match data with
  | .object fields => renderer.render name fields
  | _ => throw (.evaluation ⟨name, 0⟩ .noFields)

end Renderer

end Stencil
