import Stencil.Proofs.Render.Culprit
import Stencil.Proofs.Render.Termination

set_option autoImplicit false

namespace Stencil.Renderer

open Stencil.Action Session

variable {σ : Type}

section

variable {known : Cache σ → Prop} {points : String → Nat → Mention → Prop} {culprit : Option Culprit}

theorem evaluated_checkClosed (template : String) (floor : Nat) (session : Session) (e : ViewError)
    (failed : session.checkClosed template floor = .error e) : e.evaluated? = none := by
  rw [checkClosed] at failed
  split at failed
  · obtain rfl := Except.error.inj failed
    rfl
  · cases failed

theorem evaluated_closeContent (session : Session) (e : ViewError) (failed : closeContent session = .error e) :
    e.evaluated? = none := by
  rw [closeContent] at failed
  split at failed
  · obtain rfl := Except.error.inj failed
    rfl
  · cases failed

theorem explained_leave (before : Session) (name : String) (vars : Fields) (result : EStateM.Result ViewError (Run σ) Fields)
    (explained : Explained known points culprit result) : Explained known points culprit (leave before name vars result) := by
  cases explained with
  | other plain => exact .other plain
  | culprit stands fails => exact .culprit stands fails
  | @done changed after kept =>
      rw [leave]
      cases closed : checkClosed name before.height after.session with
      | error e => exact .other (evaluated_checkClosed _ _ _ e closed)
      | ok _ => exact .done kept

theorem explained_close (name : String) (floor : Nat) (result : EStateM.Result ViewError (Run σ) Fields)
    (explained : Explained known points culprit result) : Explained known points culprit (close name floor result) := by
  cases explained with
  | other plain => exact .other plain
  | culprit stands fails => exact .culprit stands fails
  | @done changed after kept =>
      rw [close]
      cases closed : checkClosed name floor after.session with
      | error e => exact .other (evaluated_checkClosed _ _ _ e closed)
      | ok _ =>
          dsimp only
          cases ended : closeContent after.session with
          | error e => exact .other (evaluated_closeContent _ e ended)
          | ok session => exact .done kept

end

section

variable [Store σ] (renderer : Renderer)

def blameInserted (left : Nat) (name : String) : Blame σ := fun vars run =>
  match left with
  | 0 => none
  | left + 1 =>
      match Cache.ensureFresh renderer.compiler name run.cache with
      | .error _ _ => none
      | .ok program cache =>
          (renderer.scope left name run.session.height).blameNodes (blameInserted left) 0 program.nodes vars
            ⟨cache, run.session.deeper⟩

def blameTemplate (data : Fields) (name : String) (run : Run σ) : Option Culprit :=
  match Cache.ensureFresh renderer.compiler name run.cache with
  | .error _ _ => none
  | .ok program cache =>
      (renderer.scope renderer.limits.includeDepth name (run.session.height + 1)).blameNodes
        (renderer.blameInserted renderer.limits.includeDepth) 0 program.nodes data ⟨cache, opened run.session⟩

def blameChain (data : Fields) (left : Nat) (name : String) (run : Run σ) : Option Culprit :=
  if run.session.chain.contains name then none
  else
    match left with
    | 0 => none
    | left + 1 =>
        match renderer.runTemplate name data (linked name run) with
        | .error _ _ => renderer.blameTemplate data name (linked name run)
        | .ok _ after =>
            match after.session.parent with
            | none => none
            | some layout => blameChain data left layout (parentless after)

def culprit (data : Fields) (name : String) (cache : Cache σ) : Option Culprit :=
  renderer.blameChain data (renderer.limits.inheritanceDepth + 1) name ⟨cache, .start⟩

end

def Pointing (served : String → Program → Prop) (template : String) (place : Nat) (mention : Mention) : Prop :=
  ∃ program, served template program ∧ program.mentions[place]? = some mention

theorem stands_pointing (served : String → Program → Prop) (name : String) (program : Program)
    (given : served name program) : Stands (Pointing served name) 0 program.mentions :=
  fun i mention found => ⟨program, given, stands_all program.mentions i mention found⟩

section

variable [Store σ] {renderer : Renderer} {known : Cache σ → Prop} {served : String → Program → Prop}
  (fresh : ∀ name, Guards known (Cache.ensureFresh renderer.compiler name) (served name) fun e => e.evaluated? = none)

include fresh

theorem explained_insert (left : Nat) (name : String) (vars : Fields) (run : Run σ) (kept : known run.cache) :
    Explained known (Pointing served) (renderer.blameInserted left name vars run) (renderer.insert left name vars run) := by
  induction left generalizing name vars run with
  | zero =>
      rw [blameInserted, insert]
      exact .other rfl
  | succ left ih =>
      have given := fresh name run.cache kept
      rw [blameInserted]
      cases found : Cache.ensureFresh renderer.compiler name run.cache with
      | error e cache =>
          rw [found] at given
          rw [insert_missing renderer left name vars run e cache found]
          exact .other given.1
      | ok program cache =>
          rw [found] at given
          rw [← explained_bind_pure _ vars, insert_found renderer left name vars run program cache found]
          apply explained_leave
          exact explained_runNodes ih program.nodes 0 (stands_pointing served name program given.1) vars _ given.2

theorem explained_runTemplate (data : Fields) (name : String) (run : Run σ) (kept : known run.cache) :
    Explained known (Pointing served) (renderer.blameTemplate data name run) (renderer.runTemplate name data run) := by
  have given := fresh name run.cache kept
  rw [blameTemplate]
  cases found : Cache.ensureFresh renderer.compiler name run.cache with
  | error e cache =>
      rw [found] at given
      rw [runTemplate_missing run e cache found]
      exact .other given.1
  | ok program cache =>
      rw [found] at given
      rw [runTemplate_found run program cache found]
      apply explained_close
      exact explained_runNodes (explained_insert fresh _) program.nodes 0 (stands_pointing served name program given.1)
        data _ given.2

theorem explained_runChain (data : Fields) (left : Nat) (name : String) (run : Run σ) (kept : known run.cache) :
    Explained known (Pointing served) (renderer.blameChain data left name run) (renderer.runChain data left name run) := by
  induction left generalizing name run with
  | zero =>
      rw [blameChain, runChain_zero]
      by_cases looped : run.session.chain.contains name = true
      · rw [if_pos looped, if_pos looped]
        exact .other rfl
      · rw [if_neg looped, if_neg looped]
        exact .other rfl
  | succ left ih =>
      rw [blameChain, runChain_succ]
      by_cases looped : run.session.chain.contains name = true
      · rw [if_pos looped, if_pos looped]
        exact .other rfl
      · rw [if_neg looped, if_neg looped, runLink_eq]
        have ran := explained_runTemplate fresh data name (linked name run) kept
        cases ended : renderer.runTemplate name data (linked name run) with
        | error e after =>
            rw [ended] at ran
            exact ran
        | ok _ after =>
            rw [ended] at ran
            have kept := known_of_explained ran
            dsimp only
            cases after.session.parent with
            | none => exact .done kept
            | some layout => exact ih layout (parentless after) kept

variable (renderer) in
theorem explained_render (data : Fields) (name : String) (cache : Cache σ) (kept : known cache) :
    match renderer.render name data cache with
    | .ok _ _ => renderer.culprit data name cache = none
    | .error e _ =>
        match e.evaluated? with
        | none => renderer.culprit data name cache = none
        | some site => ∃ culprit program mention, renderer.culprit data name cache = some culprit ∧
            served culprit.template program ∧ program.mentions[culprit.place]? = some mention ∧
            site = ⟨culprit.template, mention.line⟩ ∧ site.Fails culprit.vars mention.expression e := by
  have ran := explained_runChain fresh data (renderer.limits.inheritanceDepth + 1) name ⟨cache, .start⟩ kept
  rw [render_eq, culprit]
  generalize renderer.blameChain data (renderer.limits.inheritanceDepth + 1) name ⟨cache, .start⟩ = found at ran
  generalize renderer.runChain data (renderer.limits.inheritanceDepth + 1) name ⟨cache, .start⟩ = result at ran
  cases ran with
  | done kept => rfl
  | other plain =>
      simp only [printed, plain]
  | culprit stands fails =>
      obtain ⟨program, given, found⟩ := stands
      simp only [printed, Site.evaluated_of_fails _ _ _ _ fails]
      exact ⟨_, program, _, rfl, given, found, rfl, fails⟩

end

end Stencil.Renderer
