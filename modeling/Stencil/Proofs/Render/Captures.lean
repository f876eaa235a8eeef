import Stencil.Proofs.Cache.Errors
import Stencil.Proofs.Render.Chain
import Stencil.Proofs.Render.Frames
import Stencil.Proofs.Render.Invariant

set_option autoImplicit false

namespace Stencil

open Stencil.Action Session

section Nodes

variable {σ : Type} {floor : Nat} {before : Session} {E : ViewError → Prop}

def Run.Sparing (floor : Nat) (before : Session) (run : Run σ) : Prop := before.Spares floor run.session

theorem sparing_write (text : String) :
    Ensures (fun run : Run σ => run.Sparing floor before) (Run.write text) (fun _ => Run.Sparing floor before) E :=
  ensures_inSession _ fun _ start => spares_write text start

theorem sparing_finish (overwrite : Bool) :
    Ensures (fun run : Run σ => run.Sparing floor before ∧ floor < run.session.height) (Run.finish overwrite)
      (fun _ => Run.Sparing floor before) E := by
  intro run start
  obtain ⟨sparing, higher⟩ := start
  cases ended : run.session.finish overwrite with
  | ok pair =>
      obtain ⟨name, after⟩ := pair
      simp only [Run.finish, ended]
      exact .ok (spares_finish overwrite name after higher ended sparing)
  | error e =>
      exfalso
      simp only [Session.finish] at ended
      split at ended
      · rename_i none
        simp [height, none] at higher
      · cases ended

variable (fair : ∀ e, e ≠ .unbalancedEnd → E e) (template : String) (limits : Limits)
  (insert : String → Fields → Action (Run σ) Unit)

include fair

theorem sparing_extend (site : Site) (name : Expr) (vars : Fields) :
    Ensures (fun run : Run σ => run.Sparing floor before) (Scope.extend site name vars)
      (fun _ => Run.Sparing floor before) E := by
  refine ensures_bind _ _ (ensures_lift fair _ (site.calm_name vars name)) fun name => ?_
  refine ensures_bind _ _ (P := fun _ => Run.Sparing floor before) ?_ fun _ => ensures_pure vars fun _ kept => kept
  refine ensures_inSession _ fun run start => ?_
  by_cases inside : 0 < run.session.includeDepth
  · simp only [if_pos inside]
    exact start.2
  · simp only [if_neg inside]
    exact spares_extend name inside start.2

theorem sparing_printBlock (name default : String) :
    Ensures (Run.Sparing floor before) (Scope.printBlock ⟨template, floor, limits, insert⟩ name default)
      (fun _ => Run.Sparing floor before) E := by
  refine ensures_bind _ _ (ensures_read fair _ fun session => session.calm_block limits name default) fun text => ?_
  exact fun run start => sparing_write text run start.2

theorem sparing_yield (site : Site) (block : Expr) (default : Option Expr) (vars : Fields) :
    Ensures (Run.Sparing floor before) (Scope.yield ⟨template, floor, limits, insert⟩ site block default vars)
      (fun _ => Run.Sparing floor before) E := by
  refine ensures_bind _ _ (ensures_lift fair _ (site.calm_name vars block)) fun name => ?_
  have printed : ∀ fallback, Ensures (Run.Sparing floor before)
      (do
        Scope.printBlock ⟨template, floor, limits, insert⟩ name fallback
        return vars)
      (fun _ => Run.Sparing floor before) E := by
    intro fallback
    refine ensures_bind _ _ (sparing_printBlock fair template limits insert name fallback) fun _ => ?_
    exact ensures_pure vars fun _ kept => kept
  cases default with
  | none => exact fun run start => printed "" run start.2
  | some e =>
      refine ensures_bind _ _ (ensures_lift fair _ (site.calm_text vars e)) fun fallback => ?_
      exact fun run start => printed fallback run start.2.2

theorem sparing_openSection (site : Site) (block : Expr) (inline : Option Expr) (vars : Fields) :
    Ensures (fun run : Run σ => run.Sparing floor before) (Scope.openSection site block inline vars)
      (fun _ => Run.Sparing floor before) E := by
  refine ensures_bind _ _ (ensures_lift fair _ (site.calm_name vars block)) fun name => ?_
  cases inline with
  | none =>
      refine ensures_bind _ _ (P := fun _ => Run.Sparing floor before) ?_ fun _ => ensures_pure vars fun _ kept => kept
      exact ensures_inSession _ fun run start => spares_openFrame name false start.2
  | some e =>
      refine ensures_bind _ _ (ensures_lift fair _ (site.calm_text vars e)) fun content => ?_
      refine ensures_bind _ _ (P := fun _ run => run.Sparing floor before ∧ floor < run.session.height)
        (ensures_inSession _ fun run start => ?_) fun _ => ?_
      · have opened := spares_openFrame name false start.2.2
        refine ⟨spares_write _ opened, ?_⟩
        have above := start.2.2.above
        rw [height_write]
        simp only [begin, openFrame, height, List.length_cons] at above ⊢
        omega
      · refine ensures_bind _ _ (sparing_finish false) fun _ => ?_
        exact ensures_pure vars fun _ kept => kept

theorem sparing_closeSection (site : Site) (mode : EndMode) (vars : Fields) :
    Ensures (Run.Sparing floor before) (Scope.closeSection ⟨template, floor, limits, insert⟩ site mode vars)
      (fun _ => Run.Sparing floor before) E := by
  have closed : Ensures (fun run : Run σ => run.Sparing floor before ∧ floor < run.session.height)
      (do
        let name ← Run.finish (mode = .overwrite)
        if mode = .show then Scope.printBlock ⟨template, floor, limits, insert⟩ name ""
        return vars)
      (fun _ => Run.Sparing floor before) E := by
    refine ensures_bind _ _ (sparing_finish _) fun name => ?_
    by_cases shown : mode = .show
    · simp only [shown, if_true]
      refine ensures_bind _ _ (sparing_printBlock fair template limits insert name "") fun _ => ?_
      exact ensures_pure vars fun _ kept => kept
    · simp only [shown, if_false]
      exact ensures_pure vars fun _ kept => kept
  refine ensures_get _ fun run start => ?_
  by_cases level : run.session.height ≤ floor
  · simp only [level, if_true]
    exact .error (fair _ (by simp))
  · simp only [level, if_false]
    exact closed run ⟨start, by omega⟩

theorem scope_sparing (floor : Nat) (before : Session) (inserted : ∀ name vars session,
      Ensures (fun run => run.session = session) (insert name vars)
        (fun _ run => session.Included run.session) E) :
    Scope.Keeps ⟨template, floor, limits, insert⟩ Node.Standard.free (Run.Sparing floor before) E where
  text content _ := sparing_write content
  echo _ _ _ text _ _ := sparing_write text
  extend := sparing_extend fair
  insert name vars := by
    intro run start
    have ended := inserted name vars run.session run rfl
    dsimp only
    generalize insert name vars run = result at ended
    cases ended with
    | ok included => exact .ok (spares_included _ start included)
    | error failed => exact .error failed
  yield site block default vars _ := sparing_yield fair template limits insert site block default vars
  openSection := sparing_openSection fair
  closeSection := sparing_closeSection fair template limits insert

end Nodes

namespace Renderer

theorem closeContent_of_spares (floor : Nat) (before session : Session) (above : 0 < floor)
    (spares : before.Spares floor session) : ∃ after, closeContent session = .ok after := by
  have higher := spares.above
  simp only [closeContent]
  split
  · rename_i none
    simp only [height, none, List.length_nil] at higher
    omega
  · exact ⟨_, rfl⟩

section Templates

variable {σ : Type} [Store σ] (renderer : Renderer) {E : ViewError → Prop}
  (fair : ∀ e, e ≠ .unbalancedEnd → E e)
  (fresh : ∀ name, Ensures (fun _ : Cache σ => True) (Cache.ensureFresh renderer.compiler name)
    (fun _ _ => True) E)

include fresh

theorem ensures_fresh (J : Session → Prop) (name : String) :
    Ensures (fun run : Run σ => J run.session) (Run.inCache (Cache.ensureFresh renderer.compiler name))
      (fun _ run => J run.session) E :=
  ensures_inCache _ (fresh name) (fun _ _ => trivial) fun _ _ _ start _ => start

include fair

theorem ensures_insert (left : Nat) (name : String) (vars : Fields) (session : Session) :
    Ensures (fun run : Run σ => run.session = session) (renderer.insert left name vars)
      (fun _ run => session.Included run.session) E := by
  induction left generalizing name vars session with
  | zero => exact ensures_throw _ (fair _ (by simp))
  | succ left ih =>
      refine ensures_bind _ _ (ensures_fresh renderer fresh (· = session) name) fun program => ?_
      refine ensures_get _ fun run start => ?_
      have keeps := scope_sparing fair name renderer.limits (renderer.insert left) run.session.height
        run.session.deeper ih
      have ended := ensures_runNodes fair keeps program.nodes (Node.eachOf_free _) vars
        { run with session := run.session.deeper } (spares_self (Nat.le_refl _))
      simp only [inserted, bind, EStateM.bind]
      generalize Scope.runNodes _ program.nodes vars _ = result at ended
      cases ended with
      | error failed => exact .error failed
      | ok sparing =>
          rename_i changed after
          have same : checkClosed name run.session.height (after.session.shallower run.session.contentClaimed)
              = checkClosed name run.session.height after.session := rfl
          simp only [Run.read, same]
          cases closed : checkClosed name run.session.height after.session with
          | error e => exact .error (fair e (calm_checkClosed _ _ _ e closed))
          | ok _ =>
              rw [← start]
              exact .ok (included_of_spares name after.session sparing closed)

theorem ensures_runTemplate (name : String) (data : Fields) :
    Ensures (fun _ : Run σ => True) (renderer.runTemplate name data) (fun _ _ => True) E := by
  refine ensures_bind _ _ (ensures_fresh renderer fresh (fun _ => True) name) fun program => ?_
  refine ensures_get _ fun run _ => ?_
  let opened : Session := ({ run.session with contentClaimed := false }).openFrame contentBlock true
  have close : Ensures (fun after : Run σ => after.Sparing (run.session.height + 1) opened)
      (do
        let session ← Run.read closeContent
        Run.inSession fun _ => session)
      (fun _ _ => True) E := by
    intro run' spares
    obtain ⟨after, closed⟩ := closeContent_of_spares _ opened run'.session (Nat.succ_pos _) spares
    simp only [bind, EStateM.bind, Run.read, closed, Run.lift, Run.inSession]
    exact .ok trivial
  have keeps := scope_sparing fair name renderer.limits (renderer.insert renderer.limits.includeDepth)
    (run.session.height + 1) opened (ensures_insert renderer fair fresh renderer.limits.includeDepth)
  have whole := ensures_bind _ _ (ensures_runNodes fair keeps program.nodes (Node.eachOf_free _) data) fun _ =>
    ensures_bind _ _ (ensures_read fair _ fun session => session.calm_checkClosed name (run.session.height + 1))
      fun _ run' start => close run' start.2
  exact whole { run with session := opened } (spares_self (Nat.le_refl _))

theorem ensures_render (name : String) (data : Fields) :
    Ensures (fun _ : Cache σ => True) (renderer.render name data) (fun _ _ => True) E := by
  intro cache _
  have templates name := ensures_runTemplate renderer fair fresh name data
  have ended := ensures_runChain renderer data fair templates (fun _ _ _ start => start)
    (renderer.limits.inheritanceDepth + 1) name ⟨cache, .start⟩ trivial
  simp only [render]
  generalize renderer.runChain data _ name ⟨cache, .start⟩ = result at ended
  cases ended with
  | ok _ => exact .ok trivial
  | error failed => exact .error failed

end Templates

theorem render_calm {σ : Type} [Store σ] (calm : Store.Calm σ) (renderer : Renderer) (name : String)
    (data : Fields) (cache after : Cache σ) (e : ViewError)
    (failed : renderer.render name data cache = .error e after) : e ≠ .unbalancedEnd := by
  have fresh := Cache.ensures_ensureFresh calm renderer.compiler
  have ended := ensures_render renderer (fun _ apart => apart) fresh name data cache trivial
  rw [failed] at ended
  cases ended with
  | error apart => exact apart

/-- Running nodes leaves the captures below a floor under their names and lets only the innermost of them take
more text. An inserted template changes nothing else of its inserter but the blocks, and no render over a
store ends a capture that is not there. -/
theorem captures_kept {σ : Type} [Store σ] (renderer : Renderer) :
    (∀ (left floor : Nat) (template : String) (nodes : List Node) (vars vars' : Fields) (run after : Run σ),
      floor ≤ run.session.height →
      Scope.runNodes ⟨template, floor, renderer.limits, renderer.insert left⟩ nodes vars run = .ok vars' after →
      run.session.Undisturbed floor after.session) ∧
    (∀ (left floor : Nat) (template : String) (name : Expr) (line : Nat) (vars vars' : Fields) (run after : Run σ),
      Scope.runNode ⟨template, floor, renderer.limits, renderer.insert left⟩ (.insert name line) vars run
        = .ok vars' after →
      vars' = vars ∧ ∃ text blocks, after.session = { run.session.write text with blocks }) ∧
    (∀ name data (cache after : Cache Memory) e,
      renderer.render name data cache = .error e after → e ≠ .unbalancedEnd) ∧
    ∀ name data (cache after : Cache Files) e,
      renderer.render name data cache = .error e after → e ≠ .unbalancedEnd := by
  have any : ∀ e : ViewError, e ≠ .unbalancedEnd → True := fun _ _ => trivial
  have fresh : ∀ name, Ensures (fun _ : Cache σ => True) (Cache.ensureFresh renderer.compiler name)
      (fun _ _ => True) (fun _ => True) := by
    intro name cache _
    cases Cache.ensureFresh renderer.compiler name cache with
    | ok _ _ => exact .ok trivial
    | error _ _ => exact .error trivial
  refine ⟨?_, ?_, render_calm Memory.calm renderer, render_calm Files.calm renderer⟩
  · intro left floor template nodes vars vars' run after above done
    have keeps := scope_sparing any template renderer.limits (renderer.insert left) floor run.session
      (ensures_insert renderer any fresh left)
    have ended := ensures_runNodes any keeps nodes (Node.eachOf_free nodes) vars run (spares_self above)
    rw [done] at ended
    cases ended with
    | ok sparing => exact undisturbed_of_spares above sparing
  · intro left floor template name line vars vars' run after done
    rw [Scope.runNode] at done
    have inserted := ensures_insert renderer any fresh left
    have ended : Ensures (fun start : Run σ => start.session = run.session)
        (Scope.runInserted ⟨template, floor, renderer.limits, renderer.insert left⟩ ⟨template, line⟩ name vars)
        (fun result after => result = vars ∧ run.session.Included after.session) (fun _ => True) := by
      refine ensures_bind _ _ (ensures_lift any _ (Site.calm_name _ vars name)) fun found => ?_
      refine ensures_bind _ _ (fun run' start => inserted found vars run.session run' start.2) fun _ => ?_
      exact ensures_pure vars fun _ included => ⟨rfl, included⟩
    have reached := ended run rfl
    dsimp only [Scope.site] at done
    rw [done] at reached
    cases reached with
    | ok kept => exact kept

def nested : Run Memory where
  cache := ⟨⟨[("part", ⟨"x", 1⟩)], []⟩, ⟨0, 0⟩⟩
  session := { Session.start with frames := [⟨"inner", "i", false⟩, ⟨"outer", "o", false⟩] }

def plain : Renderer := ⟨⟨.escaping, fun name => name, 2⟩, ⟨false, 2, 2, 2⟩⟩

def part : Node := .insert (.literal (.string "part")) 1

def framesOf : EStateM.Result ViewError (Run Memory) Fields → Option (List Frame)
  | .ok _ after => some after.session.frames
  | .error _ _ => none

theorem ok_of_framesOf (result : EStateM.Result ViewError (Run Memory) Fields) (frames : List Frame)
    (found : framesOf result = some frames) : ∃ vars after, result = .ok vars after ∧ after.session.frames = frames := by
  cases result with
  | ok vars after => exact ⟨vars, after, rfl, Option.some.inj found⟩
  | error _ _ => cases found

theorem captures_kept_nested :
    (∃ after : Run Memory, after.session.frames = [⟨"outer", "oz", false⟩] ∧
      nested.session.Undisturbed 1 after.session) ∧
    (∃ after : Run Memory, after.session.frames = [⟨"inner", "ix", false⟩, ⟨"outer", "o", false⟩] ∧
      ∃ text blocks, after.session = { nested.session.write text with blocks }) ∧
    ∃ e, (∃ after, plain.render "missing" [] nested.cache = .error e after) ∧ e ≠ .unbalancedEnd := by
  obtain ⟨nodes, inserts, renders, _⟩ := @captures_kept Memory _ plain
  refine ⟨?_, ?_, ?_⟩
  · obtain ⟨vars, after, done, frames⟩ := ok_of_framesOf
      (Scope.runNodes ⟨"page", 1, plain.limits, plain.insert 2⟩ [part, .closeSection .append 1, .text "z"] [] nested)
      [⟨"outer", "oz", false⟩] (by decide +kernel)
    exact ⟨after, frames, nodes 2 1 "page" _ [] vars nested after (by decide) done⟩
  · obtain ⟨vars, after, done, frames⟩ := ok_of_framesOf
      (Scope.runNode ⟨"page", 1, plain.limits, plain.insert 2⟩ part [] nested)
      [⟨"inner", "ix", false⟩, ⟨"outer", "o", false⟩] (by decide +kernel)
    exact ⟨after, frames, (inserts 2 1 "page" _ 1 [] vars nested after done).2⟩
  · have failed : ∃ after, plain.render "missing" [] nested.cache
        = .error (.templateNotFound "missing" "missing") after := ⟨_, rfl⟩
    obtain ⟨after, failed⟩ := failed
    exact ⟨_, ⟨after, failed⟩, renders "missing" [] nested.cache after _ failed⟩

end Renderer

end Stencil
