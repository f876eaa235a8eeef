import Stencil.Proofs.Cache.Coherence
import Stencil.Proofs.Render.Simulation

set_option autoImplicit false

namespace Stencil.Renderer

open Stencil.Action

/-- A render that succeeds has the same text under looser limits and leaves the same cache. One that fails,
and not by a limit, fails the same way. -/
theorem render_of_looser {σ : Type} [Store σ] (compiler : Compiler) (limits looser : Limits)
    (within : limits.Within looser) (name : String) (data : Fields) (cache : Cache σ) :
    (∀ text after, render ⟨compiler, limits⟩ name data cache = .ok text after →
      render ⟨compiler, looser⟩ name data cache = .ok text after) ∧
    ∀ e after, render ⟨compiler, limits⟩ name data cache = .error e after → e.ofLimits = false →
      render ⟨compiler, looser⟩ name data cache = .error e after := by
  have fresh name : Alike Eq (Cache.ensureFresh (σ := σ) compiler name) (Cache.ensureFresh compiler name) := by
    rintro cache _ rfl
    cases Cache.ensureFresh compiler name cache with
    | ok program after => exact .ok rfl
    | error e after => exact .error rfl
  have rendered := Comparison.follows_render
    (Comparison.fair_plain limits looser (.inr ⟨within, fun _ stopped => stopped⟩))
    compiler compiler (fun name => Comparison.follows_programs _ _ (fresh name)) name data data rfl cache cache rfl
  generalize render ⟨compiler, limits⟩ name data cache = first at rendered
  generalize render ⟨compiler, looser⟩ name data cache = second at rendered
  refine ⟨fun text after done => ?_, fun e after failed free => ?_⟩
  · subst done
    cases rendered with
    | ok same related =>
        obtain rfl := same
        obtain rfl := related
        rfl
  · subst failed
    cases rendered with
    | error same related =>
        obtain rfl := same
        obtain rfl := related
        rfl
    | excused stopped => exact absurd (free.symm.trans stopped) Bool.false_ne_true

def tight : Limits := ⟨true, 1, 1, 2⟩

def wide : Limits := ⟨false, 2, 2, 5⟩

def twoRounds : Cache Memory :=
  ⟨Memory.empty.addSource "page" ⟨"@foreach([7, 8] as $x)\x7b\x7b $x \x7d\x7d@endforeach", 1⟩, ⟨0, 0⟩⟩

def missing : Cache Memory := ⟨Memory.empty.addSource "page" ⟨"\x7b\x7b $x \x7d\x7d", 1⟩, ⟨0, 0⟩⟩

theorem render_of_looser_rounds :
    tight.Within wide ∧
    (∃ after, render ⟨⟨.escaping, id, 1⟩, tight⟩ "page" [] twoRounds = .ok "78" after ∧
      render ⟨⟨.escaping, id, 1⟩, wide⟩ "page" [] twoRounds = .ok "78" after) ∧
    ∃ e after, e.ofLimits = false ∧ render ⟨⟨.escaping, id, 1⟩, tight⟩ "page" [] missing = .error e after ∧
      render ⟨⟨.escaping, id, 1⟩, wide⟩ "page" [] missing = .error e after := by
  have within : tight.Within wide := ⟨by decide, by decide, by decide, by decide⟩
  refine ⟨within, ?_, ?_⟩
  · have printed : (render ⟨⟨.escaping, id, 1⟩, tight⟩ "page" []).result? twoRounds = some "78" := by
      decide +kernel
    obtain ⟨after, done⟩ := ok_of_result _ _ _ printed
    exact ⟨after, done, (render_of_looser _ tight wide within "page" [] twoRounds).1 "78" after done⟩
  · have found : ((render ⟨⟨.escaping, id, 1⟩, tight⟩ "page" []).failure? missing).map ViewError.ofLimits
        = some false := by
      decide +kernel
    obtain ⟨e, undefined, free⟩ := Option.map_eq_some_iff.mp found
    obtain ⟨after, failed⟩ := error_of_failure _ _ e undefined
    exact ⟨e, after, free, failed, (render_of_looser _ tight wide within "page" [] missing).2 e after failed free⟩

end Stencil.Renderer
