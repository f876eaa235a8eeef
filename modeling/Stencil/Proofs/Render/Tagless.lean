import Mathlib
import Stencil.Proofs.Program.Contained
import Stencil.Proofs.Render.Chain
import Stencil.Proofs.Render.Invariant

set_option autoImplicit false

namespace Stencil

open Stencil.Action Text

theorem Site.tagless_text (site : Site) (vars : Fields) (e : Expr) (text : String) (tagless : e.Tagless)
    (printed : site.text vars e = .ok text) : Tagless text := by
  rw [Site.text, Site.evaluate] at printed
  cases done : Stencil.evaluate vars e with
  | ok value =>
      rw [done] at printed
      obtain rfl := Except.ok.inj printed
      exact tagless vars value done
  | error fault =>
      rw [done] at printed
      cases printed

namespace Session

structure Clean (session : Session) : Prop where
  blocks : ∀ name text, session.blocks.get? name = some text → Tagless text
  frames : ∀ frame ∈ session.frames, Tagless frame.buffer
  output : Tagless session.output

variable {session : Session}

theorem clean_write (text : String) (tagless : Tagless text) (clean : session.Clean) :
    (session.write text).Clean := by
  obtain ⟨blocks, frames, output, parent, chain, depth, claimed⟩ := session
  obtain ⟨inBlocks, inFrames, inOutput⟩ := clean
  cases frames with
  | nil => exact ⟨inBlocks, inFrames, tagless_append _ _ inOutput tagless⟩
  | cons frame outer =>
      rw [List.forall_mem_cons] at inFrames
      refine ⟨inBlocks, ?_, inOutput⟩
      exact List.forall_mem_cons.mpr ⟨tagless_append _ _ inFrames.1 tagless, inFrames.2⟩

theorem clean_openFrame (name : String) (implicit : Bool) (clean : session.Clean) :
    (session.openFrame name implicit).Clean :=
  ⟨clean.blocks, List.forall_mem_cons.mpr ⟨tagless_empty, clean.frames⟩, clean.output⟩

theorem clean_storeBlock (name text : String) (overwrite : Bool) (tagless : Tagless text) (clean : session.Clean) :
    (session.storeBlock name text overwrite).Clean := by
  refine ⟨fun query found stored => ?_, clean.frames, clean.output⟩
  have before : Tagless (if overwrite then "" else (session.blocks.get? name).getD "") := by
    cases overwrite with
    | true => exact tagless_empty
    | false =>
        cases old : session.blocks.get? name with
        | none => exact tagless_empty
        | some content => exact clean.blocks name content old
  simp only [storeBlock, Table.get_set] at stored
  by_cases same : query = name
  · rw [if_pos same] at stored
    obtain rfl := Option.some.inj stored
    exact tagless_append _ _ before tagless
  · rw [if_neg same] at stored
    exact clean.blocks query found stored

theorem clean_finish (overwrite : Bool) (name : String) (after : Session)
    (finished : session.finish overwrite = .ok (name, after)) (clean : session.Clean) : after.Clean := by
  obtain ⟨blocks, frames, output, parent, chain, depth, claimed⟩ := session
  obtain ⟨inBlocks, inFrames, inOutput⟩ := clean
  cases frames with
  | nil => cases finished
  | cons frame outer =>
      rw [List.forall_mem_cons] at inFrames
      obtain ⟨rfl, rfl⟩ := Prod.mk.inj (Except.ok.inj finished)
      exact clean_storeBlock _ _ _ inFrames.1 ⟨inBlocks, inFrames.2, inOutput⟩

theorem tagless_block (limits : Limits) (name default text : String) (tagless : Tagless default)
    (clean : session.Clean) (found : session.block limits name default = .ok text) : Tagless text := by
  rw [block] at found
  split at found
  · cases found
  · obtain rfl := Except.ok.inj found
    cases stored : session.blocks.get? name with
    | none => exact tagless
    | some content => exact clean.blocks name content stored

end Session

section Nodes

variable {σ : Type} (C : Cache σ → Prop)

structure Run.Clean (run : Run σ) : Prop where
  session : run.session.Clean
  cache : C run.cache

variable {C}

theorem clean_inSession (change : Session → Session) (kept : ∀ session : Session, session.Clean → (change session).Clean) :
    Ensures (Run.Clean C) (Run.inSession change) (fun _ => Run.Clean C) fun _ => True :=
  ensures_inSession _ fun _ clean => ⟨kept _ clean.session, clean.cache⟩

theorem clean_finish (overwrite : Bool) :
    Ensures (Run.Clean C) (Run.finish overwrite) (fun _ => Run.Clean C) fun _ => True := by
  intro run clean
  cases ended : run.session.finish overwrite with
  | ok pair =>
      obtain ⟨name, after⟩ := pair
      simp only [Run.finish, ended]
      exact .ok ⟨Session.clean_finish overwrite name after ended clean.session, clean.cache⟩
  | error e =>
      simp only [Run.finish, ended]
      exact .error trivial

-- No error matters here, since what is printed counts only when a render succeeds.
theorem any_error (e : ViewError) (_ : e ≠ .unbalancedEnd) : True := trivial

theorem clean_extend (site : Site) (name : Expr) (vars : Fields) :
    Ensures (Run.Clean C) (Scope.extend site name vars) (fun _ => Run.Clean C) fun _ => True := by
  refine ensures_bind _ _ (ensures_lift any_error _ (site.calm_name vars name)) fun name => ?_
  refine ensures_bind _ _ (P := fun _ => Run.Clean C) ?_ fun _ => ensures_pure vars fun _ clean => clean
  refine fun run start => clean_inSession _ (fun session clean => ?_) run start.2
  by_cases inside : 0 < session.includeDepth
  · simp only [if_pos inside]
    exact clean
  · simp only [if_neg inside]
    exact ⟨clean.blocks, clean.frames, clean.output⟩

variable (template : String) (floor : Nat) (limits : Limits) (insert : String → Fields → Action (Run σ) Unit)

theorem clean_printBlock (name default : String) (tagless : Tagless default) :
    Ensures (Run.Clean C) (Scope.printBlock ⟨template, floor, limits, insert⟩ name default)
      (fun _ => Run.Clean C) fun _ => True := by
  refine ensures_bind _ _ (ensures_read any_error _ fun session => session.calm_block limits name default) fun text => ?_
  intro run start
  have printed := Session.tagless_block limits name default text tagless start.2.session start.1
  exact clean_inSession _ (fun _ clean => Session.clean_write text printed clean) run start.2

theorem clean_yield (site : Site) (block : Expr) (default : Option Expr) (vars : Fields)
    (tagless : ∀ e ∈ default, e.Tagless) :
    Ensures (Run.Clean C) (Scope.yield ⟨template, floor, limits, insert⟩ site block default vars)
      (fun _ => Run.Clean C) fun _ => True := by
  refine ensures_bind _ _ (ensures_lift any_error _ (site.calm_name vars block)) fun name => ?_
  have printed : ∀ fallback, Tagless fallback → Ensures (Run.Clean C)
      (do
        Scope.printBlock ⟨template, floor, limits, insert⟩ name fallback
        return vars)
      (fun _ => Run.Clean C) fun _ => True := by
    intro fallback plain
    refine ensures_bind _ _ (clean_printBlock template floor limits insert name fallback plain) fun _ => ?_
    exact ensures_pure vars fun _ clean => clean
  cases default with
  | none => exact fun run start => printed "" tagless_empty run start.2
  | some e =>
      refine ensures_bind _ _ (ensures_lift any_error _ (site.calm_text vars e)) fun fallback => ?_
      intro run start
      exact printed fallback (site.tagless_text vars e fallback (tagless e rfl) start.1) run start.2.2

theorem clean_openSection (site : Site) (block : Expr) (inline : Option Expr) (vars : Fields) :
    Ensures (Run.Clean C) (Scope.openSection site block inline vars) (fun _ => Run.Clean C) fun _ => True := by
  refine ensures_bind _ _ (ensures_lift any_error _ (site.calm_name vars block)) fun name => ?_
  cases inline with
  | none =>
      refine ensures_bind _ _ (P := fun _ => Run.Clean C) ?_ fun _ => ensures_pure vars fun _ clean => clean
      exact fun run start => clean_inSession _ (fun _ clean => Session.clean_openFrame name false clean) run start.2
  | some e =>
      refine ensures_bind _ _ (ensures_lift any_error _ (site.calm_text vars e)) fun content => ?_
      refine ensures_bind _ _ (P := fun _ => Run.Clean C) (fun run start => ?_) fun _ => ?_
      · refine clean_inSession _ (fun session clean => ?_) run start.2.2
        exact Session.clean_write _ (tagless_escapeHtml content) (Session.clean_openFrame name false clean)
      · exact ensures_bind _ _ (clean_finish false) fun _ => ensures_pure vars fun _ clean => clean

theorem clean_closeSection (site : Site) (mode : EndMode) (vars : Fields) :
    Ensures (Run.Clean C) (Scope.closeSection ⟨template, floor, limits, insert⟩ site mode vars)
      (fun _ => Run.Clean C) fun _ => True := by
  refine ensures_get _ fun run start => ?_
  by_cases level : run.session.height ≤ floor
  · simp only [level, if_true]
    exact .error trivial
  · simp only [level, if_false]
    refine ensures_bind _ _ (clean_finish _) (fun name => ?_) run start
    by_cases shown : mode = .show
    · simp only [shown, if_true]
      refine ensures_bind _ _ (clean_printBlock template floor limits insert name "" tagless_empty) fun _ => ?_
      exact ensures_pure vars fun _ clean => clean
    · simp only [shown, if_false]
      exact ensures_pure vars fun _ clean => clean

theorem scope_clean (inserted : ∀ name vars,
      Ensures (Run.Clean C) (insert name vars) (fun _ => Run.Clean C) fun _ => True) :
    Scope.Keeps ⟨template, floor, limits, insert⟩ Node.tagless (Run.Clean C) fun _ => True where
  text content plain := clean_inSession _ fun _ clean => Session.clean_write content plain clean
  echo e line vars text tagless printed := by
    have plain := Site.tagless_text _ vars e text tagless printed
    exact clean_inSession _ fun _ clean => Session.clean_write text plain clean
  extend := clean_extend
  insert := inserted
  yield := clean_yield template floor limits insert
  openSection := clean_openSection
  closeSection := clean_closeSection template floor limits insert

end Nodes

namespace Scope

variable {σ : Type} (scope : Scope σ) (data : Fields)

theorem runNode_echo (e : Expr) (line : Nat) (value : Value) (run : Run σ)
    (evaluated : evaluate data e = .ok value) :
    scope.runNode (.echo e line) data run
      = .ok data { run with session := run.session.write value.output } := by
  simp only [Scope.runNode, Site.text, Site.evaluate, evaluated, Except.mapError, Except.map, bind, EStateM.bind,
    Run.lift, Run.write, Run.inSession]
  rfl

theorem runNode_yield (block : String) (e : Expr) (line : Nat) (value : Value) (run : Run σ)
    (evaluated : evaluate data e = .ok value) (missing : run.session.blocks.get? block = none)
    (shut : run.session.isOpen block = false) :
    scope.runNode (.yield (.literal (.string block)) (some e) line) data run
      = .ok data { run with session := run.session.write value.output } := by
  have named : (scope.site line).name data (.literal (.string block)) = .ok block := by
    simp only [Site.name, Site.evaluate, evaluate, Except.mapError]
  have found : run.session.block scope.limits block value.output = .ok value.output := by
    simp only [Session.block, shut, Bool.and_false, Bool.false_eq_true, if_false, missing, Option.getD_none]
  simp only [Scope.runNode, Scope.yield, named, Site.text, Site.evaluate, evaluated, Except.mapError, Except.map,
    bind, EStateM.bind, Run.lift, Scope.printBlock, Run.read, found, Run.write, Run.inSession]
  rfl

end Scope

namespace Renderer

theorem clean_closeContent (session after : Session) (closed : closeContent session = .ok after)
    (clean : session.Clean) : after.Clean := by
  obtain ⟨inBlocks, inFrames, inOutput⟩ := clean
  rw [closeContent] at closed
  split at closed
  · cases closed
  · rename_i frame outer shape
    rw [shape, List.forall_mem_cons] at inFrames
    obtain rfl := Except.ok.inj closed
    have popped : ({ session with frames := outer } : Session).Clean := ⟨inBlocks, inFrames.2, inOutput⟩
    split
    · exact popped
    · exact Session.clean_storeBlock _ _ _ inFrames.1 popped

section Templates

variable {σ : Type} [Store σ] {C : Cache σ → Prop} (renderer : Renderer)
  (fresh : ∀ name, Ensures C (Cache.ensureFresh renderer.compiler name)
    (fun program cache => Node.EachOf Node.tagless program.nodes ∧ C cache) fun _ => True)

include fresh

theorem clean_fresh (name : String) :
    Ensures (Run.Clean C) (Run.inCache (Cache.ensureFresh renderer.compiler name))
      (fun program run => Node.EachOf Node.tagless program.nodes ∧ run.Clean C) fun _ => True :=
  ensures_inCache _ (fresh name) (fun _ clean => clean.cache) fun _ _ _ clean reached =>
    ⟨reached.1, clean.session, reached.2⟩

theorem clean_insert (left : Nat) (name : String) (vars : Fields) :
    Ensures (Run.Clean C) (renderer.insert left name vars) (fun _ => Run.Clean C) fun _ => True := by
  induction left generalizing name vars with
  | zero => exact ensures_throw _ trivial
  | succ left ih =>
      refine ensures_bind _ _ (clean_fresh renderer fresh name) fun program => ?_
      refine ensures_get _ fun run start => ?_
      have keeps := scope_clean name run.session.height renderer.limits (renderer.insert left) ih
      have body := ensures_runNodes any_error keeps program.nodes start.1 vars
      refine ensures_bind _ _ (P := fun _ => Run.Clean C) ?_ (fun _ => ?_) run start.2
      · intro run clean
        have ended := body { run with session := run.session.deeper }
          ⟨⟨clean.session.blocks, clean.session.frames, clean.session.output⟩, clean.cache⟩
        simp only [inserted]
        generalize Scope.runNodes _ program.nodes vars _ = result at ended
        cases ended with
        | ok after => exact .ok ⟨⟨after.session.blocks, after.session.frames, after.session.output⟩, after.cache⟩
        | error _ => exact .error trivial
      · have closed := ensures_read (I := Run.Clean C) any_error (Session.checkClosed name run.session.height)
          fun session => session.calm_checkClosed name run.session.height
        intro after clean
        have ended := closed after clean
        generalize Run.read _ after = result at ended
        cases ended with
        | ok reached => exact .ok reached.2
        | error _ => exact .error trivial

theorem clean_runTemplate (name : String) (data : Fields) :
    Ensures (Run.Clean C) (renderer.runTemplate name data) (fun _ => Run.Clean C) fun _ => True := by
  refine ensures_bind _ _ (clean_fresh renderer fresh name) fun program => ?_
  refine ensures_get _ fun run start => ?_
  have opened := clean_inSession (C := C)
    (fun session => ({ session with contentClaimed := false }).openFrame contentBlock true)
    fun session clean => by
      have unclaimed : ({ session with contentClaimed := false } : Session).Clean :=
        ⟨clean.blocks, clean.frames, clean.output⟩
      exact Session.clean_openFrame _ _ unclaimed
  refine ensures_bind _ _ opened (fun _ => ?_) run start.2
  have keeps := scope_clean name (run.session.height + 1) renderer.limits
    (renderer.insert renderer.limits.includeDepth) (clean_insert renderer fresh renderer.limits.includeDepth)
  refine ensures_bind _ _ (ensures_runNodes any_error keeps program.nodes start.1 data) fun _ => ?_
  refine ensures_bind _ _ (ensures_read any_error _ fun session =>
    session.calm_checkClosed name (run.session.height + 1)) fun _ => ?_
  intro after start
  cases closed : closeContent after.session with
  | error e =>
      simp only [bind, EStateM.bind, Run.read, closed]
      exact .error trivial
  | ok session =>
      simp only [bind, EStateM.bind, Run.read, closed]
      exact .ok ⟨clean_closeContent _ _ closed start.2.session, start.2.cache⟩

theorem clean_render (name : String) (data : Fields) :
    Ensures C (renderer.render name data) (fun text cache => Tagless text ∧ C cache) fun _ => True := by
  intro cache holds
  have start : Session.start.Clean := by
    refine ⟨fun name text found => ?_, fun frame inside => ?_, tagless_empty⟩
    · cases found
    · cases inside
  have templates name := clean_runTemplate renderer fresh name data
  have moved : ∀ (run : Run σ) parent chain, run.Clean C →
      { run with session := { run.session with parent, chain } }.Clean C :=
    fun _ _ _ clean => ⟨⟨clean.session.blocks, clean.session.frames, clean.session.output⟩, clean.cache⟩
  have ended := ensures_runChain renderer data any_error templates moved (renderer.limits.inheritanceDepth + 1) name
    ⟨cache, .start⟩ ⟨start, holds⟩
  simp only [render]
  generalize renderer.runChain data _ name ⟨cache, .start⟩ = result at ended
  cases ended with
  | error _ => exact .error trivial
  | ok clean =>
      rename_i run
      refine .ok ⟨?_, clean.cache⟩
      cases stored : run.session.blocks.get? contentBlock with
      | none => exact tagless_empty
      | some text => exact clean.session.blocks contentBlock text stored

end Templates

section Alone

variable {σ : Type} [Store σ] (renderer : Renderer) (name : String) (data : Fields)

def entered (name : String) : Session :=
  { Session.start with frames := [⟨contentBlock, "", true⟩], chain := [name] }

theorem render_alone (cache after : Cache σ) (program : Program) (node : Node) (text : String)
    (fresh : Cache.ensureFresh renderer.compiler name cache = .ok program after) (alone : program.nodes = [node])
    (printed : Scope.runNode ⟨name, 1, renderer.limits, renderer.insert renderer.limits.includeDepth⟩ node data
      ⟨after, entered name⟩ = .ok data ⟨after, (entered name).write text⟩) :
    renderer.render name data cache = .ok text after := by
  have body : Scope.runNodes ⟨name, 1, renderer.limits, renderer.insert renderer.limits.includeDepth⟩
      program.nodes data ⟨after, entered name⟩ = .ok data ⟨after, (entered name).write text⟩ := by
    rw [alone]
    simp only [Scope.runNodes, printed]
    rfl
  have closed : Session.checkClosed name 1 ((entered name).write text) = .ok () := rfl
  have stored : closeContent ((entered name).write text)
      = .ok { Session.start with chain := [name], blocks := [(contentBlock, text)] } := by
    simp only [closeContent, entered, Session.write, Session.start, Session.storeBlock, String.empty_append, if_true]
    rfl
  have template : renderer.runTemplate name data ⟨cache, { Session.start with chain := [name] }⟩
      = .ok () ⟨after, { Session.start with chain := [name], blocks := [(contentBlock, text)] }⟩ := by
    simp only [entered, Session.start] at body closed stored ⊢
    simp only [runTemplate, bind, EStateM.bind, Run.inCache, fresh, get, getThe, MonadStateOf.get, EStateM.get,
      Run.inSession, Session.openFrame, Session.height, List.length_nil, Nat.zero_add, body, Run.read, closed,
      Run.lift, stored]
  have chain : renderer.runChain data (renderer.limits.inheritanceDepth + 1) name ⟨cache, .start⟩
      = .ok () ⟨after, { Session.start with chain := [name], blocks := [(contentBlock, text)] }⟩ := by
    rw [runChain_succ]
    simp only [Session.start, List.contains_nil, Bool.false_eq_true, if_false, runLink, bind, EStateM.bind,
      Run.inSession, List.nil_append] at template ⊢
    simp only [template]
    rfl
  simp only [render, chain, Table.get?, if_true, Option.getD_some]

theorem tag_of_node (cache after : Cache σ) (program : Program) (e : Expr) (block : String) (line : Nat)
    (tags : ¬ e.Tagless) (fresh : Cache.ensureFresh renderer.compiler name cache = .ok program after)
    (alone : program.nodes = [.echo e line] ∨
      program.nodes = [.yield (.literal (.string block)) (some e) line]) :
    ∃ data text, renderer.render name data cache = .ok text after ∧ ¬ Tagless text := by
  simp only [Expr.Tagless, Classical.not_forall] at tags
  obtain ⟨data, value, evaluated, tag⟩ := tags
  refine ⟨data, value.output, ?_, tag⟩
  rcases alone with echo | yield
  · exact render_alone renderer name data cache after program _ _ fresh echo
      (Scope.runNode_echo _ data e line value _ evaluated)
  · exact render_alone renderer name data cache after program _ _ fresh yield
      (Scope.runNode_yield _ data block e line value _ evaluated rfl rfl)

end Alone

end Renderer

end Stencil
