import Stencil.Proofs.Render.Culprit
import Stencil.Proofs.Render.Deeds

set_option autoImplicit false

namespace Stencil

open Session (Call)

abbrev Trail (σ : Type) : Type := Fields → Run σ → List Deed

def ViewError.ofChain : ViewError → Bool
  | .cycle _ | .tooDeep .inheritance _ _ => true
  | _ => false

namespace Scope

variable {σ : Type} (scope : Scope σ)

def wrote : Except ViewError String → List Deed
  | .ok text => [.call (.write text)]
  | .error _ => []

def yielded (site : Site) (block : Expr) (default : Option Expr) (vars : Fields) (session : Session) :
    Except ViewError String := do
  let name ← site.name vars block
  let fallback ← match default with
    | some e => site.text vars e
    | none => pure ""
  session.block scope.limits name fallback

def shown (mode : EndMode) (session : Session) : Except ViewError String := do
  let (name, after) ← session.finish (mode = .overwrite)
  after.block scope.limits name ""

def closed (mode : EndMode) (session : Session) : List Deed :=
  if session.height ≤ scope.floor then []
  else .call (.finish (mode = .overwrite)) :: if mode = .show then wrote (scope.shown mode session) else []

def began (site : Site) (block : Expr) (inline : Option Expr) (vars : Fields) : List Deed :=
  match site.name vars block with
  | .error _ => []
  | .ok name =>
      match inline with
      | none => [.call (.begin name)]
      | some e =>
          match site.text vars e with
          | .error _ => []
          | .ok text => [.call (.begin name), .call (.write (Text.escapeHtml text)), .call (.finish false)]

def roundDeeds (site : Site) (body : Body σ) (inBody : Trail σ) (left : Nat) (form : Loop.Form) : Trail σ :=
  fun vars run =>
    match form.next site vars with
    | .error _ | .ok none => []
    | .ok (some (bound, rest)) =>
        match left with
        | 0 => []
        | left + 1 =>
            inBody bound run ++
              match body bound run with
              | .error _ _ => []
              | .ok changed after =>
                  match form.after site changed with
                  | .error _ => []
                  | .ok ready => roundDeeds site body inBody left rest ready after

mutual
def nodeDeeds (inserted : String → Trail σ) : Node → Trail σ
  | .text content => fun _ _ => [.call (.write content)]
  | .comment _ => fun _ _ => []
  | .echo e line => fun vars _ => wrote ((scope.site line).text vars e)
  | .conditional branches none line => branchDeeds inserted (scope.site line) branches fun _ _ => []
  | .conditional branches (some otherwise) line =>
      branchDeeds inserted (scope.site line) branches (nodesDeeds inserted otherwise)
  | .each header body line => fun vars run =>
      match (scope.site line).items vars header.source with
      | .error _ => []
      | .ok items =>
          roundDeeds (scope.site line) (scope.runNodes body) (nodesDeeds inserted body) scope.limits.loopIterations
            (.each header items) vars run
  | .counted header body line => fun vars run =>
      match Assignment.applyAll (scope.site line) vars header.init with
      | .error _ => []
      | .ok bound =>
          roundDeeds (scope.site line) (scope.runNodes body) (nodesDeeds inserted body) scope.limits.loopIterations
            (.counted header) bound run
  | .whilst test body line =>
      roundDeeds (scope.site line) (scope.runNodes body) (nodesDeeds inserted body) scope.limits.loopIterations
        (.whilst test)
  | .extend template line => fun vars _ =>
      match (scope.site line).name vars template with
      | .error _ => []
      | .ok name => [.layout name]
  | .insert template line => fun vars run =>
      match (scope.site line).name vars template with
      | .error _ => []
      | .ok name => inserted name vars run
  | .yield block default line => fun vars run =>
      wrote (scope.yielded (scope.site line) block default vars run.session)
  | .openSection block inline line => fun vars _ => began (scope.site line) block inline vars
  | .closeSection mode _ => fun _ run => scope.closed mode run.session

def nodesDeeds (inserted : String → Trail σ) : List Node → Trail σ
  | [] => fun _ _ => []
  | node :: rest => fun vars run =>
      nodeDeeds inserted node vars run ++
        match scope.runNode node vars run with
        | .error _ _ => []
        | .ok changed after => nodesDeeds inserted rest changed after

def branchDeeds (inserted : String → Trail σ) (site : Site) : List (Expr × List Node) → Trail σ → Trail σ
  | [], last => last
  | (test, body) :: rest, last => fun vars run =>
      match site.test vars test with
      | .error _ => []
      | .ok true => nodesDeeds inserted body vars run
      | .ok false => branchDeeds inserted site rest last vars run
end

end Scope

-- What a run did that ended or failed. An error of a chain of layouts would have to be excused.
inductive Tells {σ α : Type} (excused : Prop) (floor : Nat) (before : Session) (deeds : List Deed) :
    EStateM.Result ViewError (Run σ) α → Prop where
  | done {a : α} {run : Run σ} (same : run.session = Deed.applyAll deeds before)
      (spares : Deed.SparesAll floor deeds before) (closes : Deed.ClosesAll deeds before) :
      Tells excused floor before deeds (.ok a run)
  | failed {e : ViewError} {run : Run σ} (same : run.session = Deed.applyAll deeds before)
      (spares : Deed.SparesAll floor deeds before) (plain : e.ofChain = true → excused) :
      Tells excused floor before deeds (.error e run)

section

variable {σ α β : Type} {excused : Prop} {floor : Nat} {before : Session} {deeds : List Deed}

theorem tells_nothing (a : α) (run : Run σ) : Tells excused floor run.session [] (.ok a run) := .done rfl trivial trivial

theorem tells_error (e : ViewError) (run : Run σ) (plain : e.ofChain = false) :
    Tells excused floor run.session [] (.error e run : EStateM.Result ViewError (Run σ) α) :=
  .failed rfl trivial fun chained => absurd (plain.symm.trans chained) Bool.false_ne_true

theorem tells_append {more : List Deed} {a : α} {run : Run σ} {result : EStateM.Result ViewError (Run σ) β}
    (first : Tells excused floor before deeds (.ok a run)) (second : Tells excused floor run.session more result) :
    Tells excused floor before (deeds ++ more) result := by
  cases first with
  | done same spares closes =>
      rw [same] at second
      cases second with
      | done same' spares' closes' =>
          exact .done (same'.trans (Deed.applyAll_append _ _ _).symm)
            ((Deed.sparesAll_append _ _ _).mpr ⟨spares, spares'⟩) ((Deed.closesAll_append _ _ _).mpr ⟨closes, closes'⟩)
      | failed same' spares' plain =>
          exact .failed (same'.trans (Deed.applyAll_append _ _ _).symm)
            ((Deed.sparesAll_append _ _ _).mpr ⟨spares, spares'⟩) plain

theorem tells_failed {e : ViewError} {run : Run σ}
    (first : Tells excused floor before deeds (.error e run : EStateM.Result ViewError (Run σ) α)) :
    Tells excused floor before (deeds ++ []) (.error e run : EStateM.Result ViewError (Run σ) β) := by
  rw [List.append_nil]
  cases first with
  | failed same spares plain => exact .failed same spares plain

theorem above_of_tells {a : α} {run : Run σ} (told : Tells excused floor before deeds (.ok a run))
    (above : floor ≤ before.height) : floor ≤ run.session.height := by
  cases told with
  | done same spares closes => exact same ▸ Deed.above_applyAll floor deeds before spares above

def Run.leaves : EStateM.Result ViewError (Run σ) α → Session
  | .ok _ run | .error _ run => run.session

theorem depth_of_tells {result : EStateM.Result ViewError (Run σ) α} (told : Tells excused floor before deeds result) :
    (Run.leaves result).includeDepth = before.includeDepth := by
  have apart := Deed.apart_applyAll deeds before
  cases told with
  | done same spares closes => exact (congrArg Session.includeDepth same).trans apart.depth
  | failed same spares plain => exact (congrArg Session.includeDepth same).trans apart.depth

theorem tells_bind_pure (b : β) (action : Action (Run σ) α) (run : Run σ) :
    Tells excused floor before deeds ((action >>= fun _ => pure b) run) ↔ Tells excused floor before deeds (action run) := by
  simp only [bind, EStateM.bind]
  cases action run with
  | ok a after =>
      constructor
      · intro told
        cases told with
        | done same spares closes => exact .done same spares closes
      · intro told
        cases told with
        | done same spares closes => exact .done same spares closes
  | error e after =>
      constructor
      · intro told
        cases told with
        | failed same spares plain => exact .failed same spares plain
      · intro told
        cases told with
        | failed same spares plain => exact .failed same spares plain

end

section

variable {σ : Type} {excused : Prop} {floor : Nat}

theorem plain_of_evaluated {e : ViewError} {site : Site} (evaluated : e.evaluated? = some site) :
    e.ofChain = false := by
  cases e with
  | undefinedVariable _ _ _ | evaluation _ _ => rfl
  | _ => cases evaluated

theorem Site.plain_of_fails {site : Site} {vars : Fields} {e : Expr} {error : ViewError}
    (fails : site.Fails vars e error) : error.ofChain = false :=
  plain_of_evaluated (site.evaluated_of_fails vars e error fails)

theorem plain_assignments (site : Site) (vars : Fields) (assignments : List Assignment) (e : ViewError)
    (failed : Assignment.applyAll site vars assignments = .error e) : e.ofChain = false := by
  induction assignments generalizing vars with
  | nil => cases failed
  | cons assignment rest ih =>
      rw [Assignment.applyAll] at failed
      cases applied : assignment.apply site vars with
      | ok changed =>
          rw [applied] at failed
          exact ih changed failed
      | error fault =>
          rw [applied] at failed
          obtain rfl := Except.error.inj failed
          exact Site.plain_of_fails (Site.fails_of_map _ _ _ _ _ applied)

theorem tells_write (text : String) (run : Run σ) :
    Tells excused floor run.session [.call (.write text)] (Run.write text run) :=
  .done rfl ⟨trivial, trivial⟩ ⟨trivial, trivial⟩

theorem tells_wrote {α : Type} (answer : Except ViewError String) (a : α) (run : Run σ)
    (plain : ∀ e, answer = .error e → e.ofChain = false) :
    Tells excused floor run.session (Scope.wrote answer)
      ((Run.lift answer >>= fun text => Run.write text >>= fun _ => pure a) run) := by
  cases answer with
  | ok text => exact .done rfl ⟨trivial, trivial⟩ ⟨trivial, trivial⟩
  | error e => exact tells_error _ _ (plain e rfl)

end

section

variable {σ : Type} {excused : Prop} (scope : Scope σ)

theorem plain_block (limits : Limits) (name default : String) (session : Session) (e : ViewError)
    (failed : session.block limits name default = .error e) : e.ofChain = false := by
  rw [Session.block] at failed
  split at failed
  · obtain rfl := Except.error.inj failed
    rfl
  · cases failed

theorem tells_printBlock (name default : String) (vars : Fields) (run : Run σ) :
    Tells excused scope.floor run.session (Scope.wrote (run.session.block scope.limits name default))
      ((scope.printBlock name default >>= fun _ => pure vars) run) := by
  simp only [Scope.printBlock, bind, EStateM.bind, Run.read]
  cases printed : run.session.block scope.limits name default with
  | ok text => exact .done rfl ⟨trivial, trivial⟩ ⟨trivial, trivial⟩
  | error e => exact tells_error _ _ (plain_block _ _ _ _ _ printed)

theorem tells_yield (site : Site) (block : Expr) (default : Option Expr) (vars : Fields) (run : Run σ) :
    Tells excused scope.floor run.session (Scope.wrote (scope.yielded site block default vars run.session))
      (scope.yield site block default vars run) := by
  rw [Scope.yielded, Scope.yield]
  simp only [bind, EStateM.bind, Run.lift, Except.bind]
  cases asked : site.name vars block with
  | error fault => exact tells_error _ _ (Site.plain_of_fails (.name asked))
  | ok name =>
      cases default with
      | none => exact tells_printBlock scope name "" vars run
      | some e =>
          simp only [Site.text]
          cases evaluated : site.evaluate vars e with
          | error fault => exact tells_error _ _ (Site.plain_of_fails (.value evaluated))
          | ok value => exact tells_printBlock scope name value.output vars run

theorem tells_openSection (site : Site) (block : Expr) (inline : Option Expr) (vars : Fields) (run : Run σ)
    (above : scope.floor ≤ run.session.height) :
    Tells excused scope.floor run.session (Scope.began site block inline vars)
      (Scope.openSection site block inline vars run) := by
  rw [Scope.began, Scope.openSection]
  simp only [bind, EStateM.bind, Run.lift]
  cases asked : site.name vars block with
  | error fault => exact tells_error _ _ (Site.plain_of_fails (.name asked))
  | ok name =>
      cases inline with
      | none => exact .done rfl ⟨trivial, trivial⟩ ⟨trivial, trivial⟩
      | some e =>
          simp only [Site.text]
          cases evaluated : site.evaluate vars e with
          | error fault => exact tells_error _ _ (Site.plain_of_fails (.value evaluated))
          | ok value =>
              have higher : scope.floor < ((run.session.begin name).write (Text.escapeHtml value.output)).height := by
                rw [Session.height_write]
                exact Nat.lt_succ_of_le above
              exact .done rfl ⟨trivial, trivial, higher, trivial⟩ ⟨trivial, trivial, trivial, trivial⟩

theorem tells_closeSection (site : Site) (mode : EndMode) (vars : Fields) (run : Run σ) :
    Tells excused scope.floor run.session (scope.closed mode run.session) (scope.closeSection site mode vars run) := by
  rw [Scope.closed, Scope.closeSection, Action.get_bind]
  by_cases outside : run.session.height ≤ scope.floor
  · simp only [outside, if_true]
    exact tells_error _ _ rfl
  · simp only [outside, if_false]
    have higher : scope.floor < run.session.height := Nat.lt_of_not_le outside
    simp only [bind, EStateM.bind, Run.finish, Scope.shown, Except.bind]
    cases ended : run.session.finish (mode = .overwrite) with
    | error e =>
        rw [Session.finish] at ended
        cases frames : run.session.frames with
        | nil =>
            rw [Session.height, frames] at higher
            exact absurd higher (Nat.not_lt_zero _)
        | cons frame outer =>
            rw [frames] at ended
            cases ended
    | ok pair =>
        obtain ⟨name, after⟩ := pair
        have finished : (Call.finish (mode = .overwrite)).run run.session = after := by
          rw [Call.run, ended]
        have first : Tells excused scope.floor run.session [.call (.finish (mode = .overwrite))]
            (.ok vars { run with session := after } : EStateM.Result ViewError (Run σ) Fields) :=
          .done finished.symm ⟨higher, trivial⟩ ⟨trivial, trivial⟩
        dsimp only
        by_cases shown : mode = .show
        · simp only [shown, if_true]
          simp only [shown] at first
          exact tells_append first (tells_printBlock scope name "" vars { run with session := after })
        · simp only [shown, if_false]
          exact first

end

section

variable {σ : Type} {excused : Prop} {scope : Scope σ}

theorem plain_next (site : Site) (form : Loop.Form) (vars : Fields) (e : ViewError)
    (failed : form.next site vars = .error e) : e.ofChain = false := by
  obtain ⟨_, _, fails⟩ := form.fails_of_next site vars e failed
  exact Site.plain_of_fails fails

theorem tells_turns (site : Site) (limit : Nat) (body : Body σ) (inBody : Trail σ)
    (inside : ∀ vars run, scope.floor ≤ run.session.height →
      Tells excused scope.floor run.session (inBody vars run) (body vars run))
    (left : Nat) (form : Loop.Form) (vars : Fields) (run : Run σ) (above : scope.floor ≤ run.session.height) :
    Tells excused scope.floor run.session (Scope.roundDeeds site body inBody left form vars run)
      (Loop.turns site limit body left form vars run) := by
  induction left generalizing form vars run with
  | zero =>
      rw [Scope.roundDeeds, Loop.turns]
      cases asked : form.next site vars with
      | error e => exact tells_error _ _ (plain_next site form vars e asked)
      | ok next =>
          cases next with
          | none => exact tells_nothing _ _
          | some next => exact tells_error _ _ rfl
  | succ left ih =>
      rw [Scope.roundDeeds, Loop.turns]
      cases asked : form.next site vars with
      | error e => exact tells_error _ _ (plain_next site form vars e asked)
      | ok next =>
          cases next with
          | none => exact tells_nothing _ _
          | some next =>
              obtain ⟨bound, rest⟩ := next
              have ran := inside bound run above
              dsimp only
              cases ended : body bound run with
              | error e after =>
                  rw [ended] at ran
                  exact tells_failed ran
              | ok changed after =>
                  rw [ended] at ran
                  dsimp only
                  cases stepped : form.after site changed with
                  | error e =>
                      exact tells_append ran
                        (tells_error _ _ (plain_assignments site changed form.steps e (form.after_fails _ changed e stepped)))
                  | ok ready => exact tells_append ran (ih rest ready after (above_of_tells ran above))

variable {inserted : String → Trail σ}
  (inside : ∀ name vars run, Tells excused scope.floor run.session (inserted name vars run) (scope.insert name vars run))

include inside

-- By recursion as in the execution. What a part of a program does is done after what was done before this part.
-- In a mutual block the linter takes a hypothesis for unused that a theorem only hands on to the others.
set_option linter.unusedSectionVars false in
mutual
theorem tells_runNode (node : Node) (vars : Fields) (run : Run σ) (above : scope.floor ≤ run.session.height) :
    Tells excused scope.floor run.session (scope.nodeDeeds inserted node vars run) (scope.runNode node vars run) := by
  match node with
  | .text content =>
      rw [Scope.nodeDeeds, Scope.runNode]
      exact (tells_bind_pure vars (Run.write content) run).mpr (tells_write content run)
  | .comment _ =>
      rw [Scope.nodeDeeds, Scope.runNode]
      exact tells_nothing vars run
  | .closeSection mode line =>
      rw [Scope.nodeDeeds, Scope.runNode]
      exact tells_closeSection scope _ mode vars run
  | .echo e line =>
      rw [Scope.nodeDeeds, Scope.runNode]
      exact tells_wrote _ vars run fun e failed => Site.plain_of_fails (Site.fails_of_map _ _ _ _ _ failed)
  | .extend template line =>
      rw [Scope.nodeDeeds, Scope.runNode, Scope.extend]
      simp only [bind, EStateM.bind, Run.lift]
      cases asked : (scope.site line).name vars template with
      | error fault => exact tells_error _ _ (Site.plain_of_fails (.name asked))
      | ok name => exact .done rfl ⟨trivial, trivial⟩ ⟨trivial, trivial⟩
  | .insert template line =>
      rw [Scope.nodeDeeds, Scope.runNode, Scope.runInserted]
      simp only [bind, EStateM.bind, Run.lift]
      cases asked : (scope.site line).name vars template with
      | error fault => exact tells_error _ _ (Site.plain_of_fails (.name asked))
      | ok name => exact (tells_bind_pure vars (scope.insert name vars) run).mpr (inside name vars run)
  | .yield block part line =>
      rw [Scope.nodeDeeds, Scope.runNode]
      exact tells_yield scope _ block part vars run
  | .openSection block part line =>
      rw [Scope.nodeDeeds, Scope.runNode]
      exact tells_openSection scope _ block part vars run above
  | .conditional branches none line =>
      rw [Scope.nodeDeeds, Scope.runNode, Scope.runOtherwise]
      exact tells_runBranches _ branches (fun _ _ => []) pure (fun vars run _ => tells_nothing vars run) vars run above
  | .conditional branches (some otherwise) line =>
      rw [Scope.nodeDeeds, Scope.runNode, Scope.runOtherwise]
      exact tells_runBranches _ branches _ _ (tells_runNodes otherwise) vars run above
  | .each header body line =>
      rw [Scope.nodeDeeds, Scope.runNode]
      simp only [bind, EStateM.bind, Run.lift]
      cases asked : (scope.site line).items vars header.source with
      | error fault => exact tells_error _ _ (Site.plain_of_fails (.items asked))
      | ok items =>
          dsimp only
          rw [Loop.each_eq]
          exact tells_turns _ _ _ _ (tells_runNodes body) _ (.each header items) vars run above
  | .counted header body line =>
      rw [Scope.nodeDeeds, Scope.runNode]
      simp only [bind, EStateM.bind, Run.lift]
      cases bound : Assignment.applyAll (scope.site line) vars header.init with
      | error fault => exact tells_error _ _ (plain_assignments _ vars header.init fault bound)
      | ok changed =>
          dsimp only
          rw [Loop.counted_eq]
          exact tells_turns _ _ _ _ (tells_runNodes body) _ (.counted header) changed run above
  | .whilst test body line =>
      rw [Scope.nodeDeeds, Scope.runNode, Loop.whilst_eq]
      exact tells_turns _ _ _ _ (tells_runNodes body) _ (.whilst test) vars run above

theorem tells_runNodes (nodes : List Node) (vars : Fields) (run : Run σ) (above : scope.floor ≤ run.session.height) :
    Tells excused scope.floor run.session (scope.nodesDeeds inserted nodes vars run) (scope.runNodes nodes vars run) := by
  match nodes with
  | [] =>
      rw [Scope.nodesDeeds, Scope.runNodes]
      exact tells_nothing vars run
  | node :: rest =>
      have ran := tells_runNode node vars run above
      rw [Scope.nodesDeeds, Scope.runNodes]
      dsimp only
      cases ended : scope.runNode node vars run with
      | error e after =>
          rw [ended] at ran
          exact tells_failed ran
      | ok changed after =>
          rw [ended] at ran
          exact tells_append ran (tells_runNodes rest changed after (above_of_tells ran above))

theorem tells_runBranches (site : Site) (branches : List (Expr × List Node)) (inLast : Trail σ) (last : Body σ)
    (final : ∀ vars run, scope.floor ≤ run.session.height →
      Tells excused scope.floor run.session (inLast vars run) (last vars run))
    (vars : Fields) (run : Run σ) (above : scope.floor ≤ run.session.height) :
    Tells excused scope.floor run.session (scope.branchDeeds inserted site branches inLast vars run)
      (scope.runBranches site branches last vars run) := by
  match branches with
  | [] =>
      rw [Scope.branchDeeds, Scope.runBranches]
      exact final vars run above
  | (test, body) :: rest =>
      rw [Scope.branchDeeds, Scope.runBranches]
      dsimp only
      cases asked : site.test vars test with
      | error fault => exact tells_error _ _ (Site.plain_of_fails (Site.fails_of_map _ _ _ _ _ asked))
      | ok goes =>
          cases goes with
          | true => exact tells_runNodes body vars run above
          | false => exact tells_runBranches site rest inLast last final vars run above
end

end

namespace Renderer

variable {σ : Type} [Store σ] (renderer : Renderer)

def insertDeeds (left : Nat) (name : String) : Trail σ := fun vars run =>
  match left with
  | 0 => []
  | left + 1 =>
      match Cache.ensureFresh renderer.compiler name run.cache with
      | .error _ _ => []
      | .ok program cache =>
          [.inside ((renderer.scope left name run.session.height).nodesDeeds (insertDeeds left) program.nodes vars
            ⟨cache, run.session.deeper⟩)]

theorem height_of_closed (template : String) (floor : Nat) (session : Session)
    (closed : session.checkClosed template floor = .ok ()) : session.height ≤ floor := by
  simp only [Session.checkClosed, Session.frameAbove?] at closed
  split at closed
  · cases closed
  · rename_i absent
    rw [List.getElem?_eq_none_iff, List.length_reverse] at absent
    exact absent

variable {excused : Prop}

omit [Store σ] in
theorem tells_leave (floor : Nat) (before : Session) (name : String) (vars : Fields) (deeds : List Deed)
    (result : EStateM.Result ViewError (Run σ) Fields)
    (told : Tells excused before.height before.deeper deeds result) :
    Tells excused floor before [.inside deeds] (leave before name vars result) := by
  have inside (spares : Deed.SparesAll before.height deeds before.deeper) :
      Deed.SparesAll floor [.inside deeds] before := by
    refine ⟨?_, trivial⟩
    rw [Deed.Spares]
    exact spares
  have back (after : Run σ) (same : after.session = Deed.applyAll deeds before.deeper) :
      (leave.back before after).session = Deed.applyAll [.inside deeds] before := by
    rw [leave.back, same, Deed.applyAll, Deed.apply, Deed.applyAll]
  cases told with
  | @failed e after same spares plain => exact .failed (back after same) (inside spares) plain
  | @done changed after same spares closes =>
      rw [leave]
      cases closed : Session.checkClosed name before.height after.session with
      | error e =>
          rw [Session.checkClosed] at closed
          split at closed
          · obtain rfl := Except.error.inj closed
            exact .failed (back after same) (inside spares) fun chained => absurd chained Bool.false_ne_true
          · cases closed
      | ok _ =>
          refine .done (back after same) (inside spares) ⟨?_, trivial⟩
          have above := Deed.above_applyAll before.height deeds before.deeper spares (Nat.le_refl _)
          rw [Deed.Closes]
          rw [same] at closed
          exact Nat.le_antisymm (height_of_closed _ _ _ closed) above

variable (fresh : ∀ name (cache after : Cache σ) e, Cache.ensureFresh renderer.compiler name cache = .error e after →
  e.ofChain = true → excused)

include fresh

theorem tells_insert (left floor : Nat) (name : String) (vars : Fields) (run : Run σ) :
    Tells excused floor run.session (renderer.insertDeeds left name vars run) (renderer.insert left name vars run) := by
  induction left generalizing floor name vars run with
  | zero =>
      rw [insertDeeds, insert]
      exact tells_error _ _ rfl
  | succ left ih =>
      rw [insertDeeds]
      cases found : Cache.ensureFresh renderer.compiler name run.cache with
      | error e cache =>
          rw [insert_missing renderer left name vars run e cache found]
          exact .failed rfl trivial (fresh name run.cache cache e found)
      | ok program cache =>
          rw [← tells_bind_pure vars, insert_found renderer left name vars run program cache found]
          have ran := @tells_runNodes σ excused (renderer.scope left name run.session.height) _ (ih run.session.height)
            program.nodes vars ⟨cache, run.session.deeper⟩ (Nat.le_refl _)
          exact tells_leave floor run.session name vars _ _ ran

omit fresh in
theorem depth_of_insert (left : Nat) (name : String) (vars : Fields) (run : Run σ) :
    (Run.leaves (renderer.insert left name vars run)).includeDepth = run.session.includeDepth :=
  depth_of_tells (@tells_insert σ _ renderer True (fun _ _ _ _ _ _ => trivial) left 0 name vars run)

-- So what is counted down behind a template is what was counted up in front of it, however its nodes end.
omit fresh in
theorem depth_of_runNodes (left : Nat) (template : String) (nodes : List Node) (vars : Fields) (run : Run σ) :
    (Run.leaves ((renderer.scope left template run.session.height).runNodes nodes vars run)).includeDepth
      = run.session.includeDepth :=
  depth_of_tells (@tells_runNodes σ True (renderer.scope left template run.session.height) _
    (tells_insert renderer (fun _ _ _ _ _ _ => trivial) left run.session.height) nodes vars run (Nat.le_refl _))

end Renderer

end Stencil
