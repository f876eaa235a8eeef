import Stencil.Proofs.Render.Invariant

set_option autoImplicit false

namespace Stencil.Renderer

open Stencil.Action

variable {σ : Type} [Store σ] (renderer : Renderer) (data : Fields)

def runLink (follow : String → Action (Run σ) Unit) (name : String) : Action (Run σ) Unit := do
  Run.inSession fun session => { session with chain := session.chain ++ [name] }
  renderer.runTemplate name data
  let parent := (← get).session.parent
  Run.inSession fun session => { session with parent := none }
  match parent with
  | none => return ()
  | some next => follow next

theorem runChain_zero (name : String) (run : Run σ) :
    renderer.runChain data 0 name run
      = if run.session.chain.contains name then .error (.cycle (run.session.chain ++ [name])) run
        else .error (.tooDeep .inheritance renderer.limits.inheritanceDepth name) run := by
  rw [runChain, get_bind]
  by_cases looped : run.session.chain.contains name = true
  · rw [if_pos looped, if_pos looped]
    rfl
  · rw [if_neg looped, if_neg looped]
    rfl

theorem runChain_succ (left : Nat) (name : String) (run : Run σ) :
    renderer.runChain data (left + 1) name run
      = if run.session.chain.contains name then .error (.cycle (run.session.chain ++ [name])) run
        else renderer.runLink data (renderer.runChain data left) name run := by
  rw [runChain, get_bind]
  by_cases looped : run.session.chain.contains name = true
  · rw [if_pos looped, if_pos looped]
    rfl
  · rw [if_neg looped, if_neg looped]
    rfl

section Ensured

variable {I : Run σ → Prop} {E : ViewError → Prop} (fair : ∀ e, e ≠ .unbalancedEnd → E e)
  (template : ∀ name, Ensures I (renderer.runTemplate name data) (fun _ => I) E)
  (moved : ∀ (run : Run σ) parent chain, I run →
    I { run with session := { run.session with parent, chain } })

include template moved

theorem ensures_runLink (follow : String → Action (Run σ) Unit)
    (next : ∀ name, Ensures I (follow name) (fun _ => I) E) (name : String) :
    Ensures I (renderer.runLink data follow name) (fun _ => I) E := by
  have named : Ensures I (Run.inSession fun session => { session with chain := session.chain ++ [name] })
      (fun _ => I) E := ensures_inSession _ fun run => moved run run.session.parent _
  have ended : Ensures I (Run.inSession fun session => { session with parent := none }) (fun _ => I) E :=
    ensures_inSession _ fun run => moved run none run.session.chain
  refine ensures_bind _ _ named fun _ => ?_
  refine ensures_bind _ _ (template name) fun _ => ?_
  refine ensures_get _ fun run start => ?_
  refine ensures_bind _ _ ended (fun _ => ?_) run start
  cases run.session.parent with
  | none => exact ensures_pure () fun _ kept => kept
  | some layout => exact next layout

include fair

theorem ensures_runChain (left : Nat) (name : String) :
    Ensures I (renderer.runChain data left name) (fun _ => I) E := by
  induction left generalizing name with
  | zero =>
      intro run _
      rw [runChain_zero]
      split
      · exact .error (fair _ (by simp))
      · exact .error (fair _ (by simp))
  | succ left ih =>
      intro run start
      rw [runChain_succ]
      split
      · exact .error (fair _ (by simp))
      · exact ensures_runLink renderer data template moved _ ih name run start

end Ensured

end Stencil.Renderer
