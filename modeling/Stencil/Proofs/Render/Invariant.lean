import Stencil.Proofs.Program.Each
import Stencil.Proofs.Render.Rounds
import Stencil.Render.Renderer

set_option autoImplicit false

namespace Stencil

-- `P` holds of the result and the state that an action ends with, or `E` of its error.
inductive Ends {σ α : Type} (P : α → σ → Prop) (E : ViewError → Prop) :
    EStateM.Result ViewError σ α → Prop where
  | ok {a : α} {s : σ} (reached : P a s) : Ends P E (.ok a s)
  | error {e : ViewError} {s : σ} (failed : E e) : Ends P E (.error e s)

namespace Action

variable {σ α β : Type} {I : σ → Prop} {P : α → σ → Prop} {Q : β → σ → Prop} {E : ViewError → Prop}

def Ensures (I : σ → Prop) (action : Action σ α) (P : α → σ → Prop) (E : ViewError → Prop) : Prop :=
  ∀ s, I s → Ends P E (action s)

theorem ensures_pure (a : α) (reached : ∀ s, I s → P a s) : Ensures I (pure a) P E :=
  fun s start => .ok (reached s start)

theorem ensures_throw (e : ViewError) (failed : E e) : Ensures I (throw e) P E := fun _ _ => .error failed

theorem ensures_bind (action : Action σ α) (next : α → Action σ β) (first : Ensures I action P E)
    (more : ∀ a, Ensures (P a) (next a) Q E) : Ensures I (action >>= next) Q E := by
  intro s start
  have ended := first s start
  simp only [bind, EStateM.bind]
  generalize action s = result at ended
  cases ended with
  | ok reached => exact more _ _ reached
  | error failed => exact .error failed

theorem get_bind (next : σ → Action σ β) (s : σ) : (get >>= next) s = next s s := rfl

theorem ensures_get (next : σ → Action σ β) (more : ∀ s, I s → Ends Q E (next s s)) :
    Ensures I (get >>= next) Q E := more

end Action

open Stencil.Action

-- A question that is not answered with the end of a capture that nobody opened.
def Calm {α : Type} (answer : Except ViewError α) : Prop := ∀ e, answer = .error e → e ≠ .unbalancedEnd

section Questions

theorem calm_mapError {α ε : Type} (result : Except ε α) (change : ε → ViewError)
    (apart : ∀ fault, change fault ≠ .unbalancedEnd) : Calm (result.mapError change) := by
  intro e failed
  cases result with
  | ok a => cases failed
  | error fault =>
      obtain rfl := Except.error.inj failed
      exact apart fault

theorem calm_map {α β : Type} (result : Except ViewError α) (change : α → β) (calm : Calm result) :
    Calm (result.map change) := by
  intro e failed
  cases result with
  | ok a => cases failed
  | error fault =>
      obtain rfl := Except.error.inj failed
      exact calm fault rfl

namespace Site

variable (site : Site) (vars : Fields) (e : Expr)

theorem fault_ne (fault : EvalFault) : site.fault vars fault ≠ .unbalancedEnd := by
  cases fault <;> simp [Site.fault]

theorem calm_evaluate : Calm (site.evaluate vars e) := calm_mapError _ _ (site.fault_ne vars)

theorem calm_test : Calm (site.test vars e) := calm_map _ _ (site.calm_evaluate vars e)

theorem calm_text : Calm (site.text vars e) := calm_map _ _ (site.calm_evaluate vars e)

theorem calm_name : Calm (site.name vars e) := by
  intro error failed
  rw [Site.name] at failed
  split at failed
  · cases failed
  · cases failed
  · obtain rfl := Except.error.inj failed
    simp
  · rename_i fault evaluated
    obtain rfl := Except.error.inj failed
    exact site.calm_evaluate vars e fault evaluated

theorem calm_items : Calm (site.items vars e) := by
  intro error failed
  rw [Site.items] at failed
  split at failed
  · cases failed
  · cases failed
  · cases failed
  · obtain rfl := Except.error.inj failed
    simp
  · rename_i fault evaluated
    obtain rfl := Except.error.inj failed
    exact site.calm_evaluate vars e fault evaluated

theorem calm_applyAll (assignments : List Assignment) : Calm (Assignment.applyAll site vars assignments) := by
  induction assignments generalizing vars with
  | nil =>
      intro error failed
      cases failed
  | cons assignment rest ih =>
      have calm : Calm (assignment.apply site vars) :=
        calm_map _ _ (site.calm_evaluate vars assignment.target.2)
      intro error failed
      rw [Assignment.applyAll] at failed
      split at failed
      · exact ih _ error failed
      · rename_i fault applied
        obtain rfl := Except.error.inj failed
        exact calm fault applied

theorem calm_continues (condition : Option Expr) : Calm (Loop.continues site condition vars) := by
  cases condition with
  | none =>
      intro error failed
      cases failed
  | some e => exact site.calm_test vars e

theorem calm_next (form : Loop.Form) : Calm (form.next site vars) := by
  cases form with
  | whilst test => exact calm_map _ _ (site.calm_test vars test)
  | counted header => exact calm_map _ _ (site.calm_continues vars header.condition)
  | each header items =>
      intro error failed
      cases items with
      | nil => cases failed
      | cons item rest => cases failed

theorem calm_after (form : Loop.Form) : Calm (form.after site vars) := by
  cases form with
  | counted header => exact site.calm_applyAll vars header.step
  | whilst _ | each _ _ =>
      intro error failed
      cases failed

end Site

theorem Session.calm_block (limits : Limits) (name default : String) (session : Session) :
    Calm (session.block limits name default) := by
  intro e failed
  rw [Session.block] at failed
  split at failed
  · obtain rfl := Except.error.inj failed
    simp
  · cases failed

theorem Session.calm_checkClosed (template : String) (floor : Nat) (session : Session) :
    Calm (session.checkClosed template floor) := by
  intro e failed
  rw [Session.checkClosed] at failed
  split at failed
  · obtain rfl := Except.error.inj failed
    simp
  · cases failed

end Questions

section Runs

variable {σ : Type} {I : Run σ → Prop} {E : ViewError → Prop} (fair : ∀ e, e ≠ .unbalancedEnd → E e)

theorem ensures_inSession {P : Unit → Run σ → Prop} (change : Session → Session)
    (kept : ∀ run, I run → P () { run with session := change run.session }) :
    Ensures I (Run.inSession change) P E := fun run start => .ok (kept run start)

theorem ensures_inCache {α : Type} {C : Cache σ → Prop} {P : α → Cache σ → Prop} {Q : α → Run σ → Prop}
    (action : Action (Cache σ) α) (ensures : Ensures C action P E) (into : ∀ run, I run → C run.cache)
    (back : ∀ run a cache, I run → P a cache → Q a { run with cache }) :
    Ensures I (Run.inCache action) Q E := by
  intro run start
  have ended := ensures run.cache (into run start)
  simp only [Run.inCache]
  generalize action run.cache = result at ended
  cases ended with
  | ok reached => exact .ok (back run _ _ start reached)
  | error failed => exact .error failed

include fair

theorem ensures_lift {α : Type} (result : Except ViewError α) (calm : Calm result) :
    Ensures I (Run.lift result) (fun a run => result = .ok a ∧ I run) E := by
  intro run start
  cases result with
  | ok a => exact .ok ⟨rfl, start⟩
  | error e => exact .error (fair e (calm e rfl))

theorem ensures_read {α : Type} (question : Session → Except ViewError α)
    (calm : ∀ session, Calm (question session)) :
    Ensures I (Run.read question) (fun a run => question run.session = .ok a ∧ I run) E := by
  intro run start
  simp only [Run.read]
  cases asked : question run.session with
  | ok a => exact .ok ⟨asked, start⟩
  | error e => exact .error (fair e (calm run.session e asked))

theorem ensures_turns (body : Body σ) (keeps : ∀ vars, Ensures I (body vars) (fun _ => I) E) (site : Site)
    (limit left : Nat) (form : Loop.Form) (vars : Fields) :
    Ensures I (Loop.turns site limit body left form vars) (fun _ => I) E := by
  induction left generalizing form vars with
  | zero =>
      intro run start
      rw [Loop.turns]
      cases asked : form.next site vars with
      | error e => exact .error (fair e (site.calm_next vars form e asked))
      | ok next =>
          cases next with
          | none => exact .ok start
          | some next => exact .error (fair _ (by simp))
  | succ left ih =>
      intro run start
      rw [Loop.turns]
      cases asked : form.next site vars with
      | error e => exact .error (fair e (site.calm_next vars form e asked))
      | ok next =>
          cases next with
          | none => exact .ok start
          | some next =>
              have ended := keeps next.1 run start
              dsimp only
              generalize body next.1 run = result at ended
              cases ended with
              | error failed => exact .error failed
              | @ok changed after reached =>
                  dsimp only
                  cases stepped : form.after site changed with
                  | error e => exact .error (fair e (site.calm_after changed form e stepped))
                  | ok ready => exact ih next.2 ready after reached

end Runs

section Nodes

variable {σ : Type}

-- What the single nodes of a standard have to keep, for all nodes below them to keep it.
structure Scope.Keeps (scope : Scope σ) (standard : Node.Standard) (I : Run σ → Prop)
    (E : ViewError → Prop) : Prop where
  text : ∀ content, standard.text content → Ensures I (Run.write content) (fun _ => I) E
  echo : ∀ e line vars text, standard.echo e → (scope.site line).text vars e = .ok text →
    Ensures I (Run.write text) (fun _ => I) E
  extend : ∀ site name vars, Ensures I (Scope.extend site name vars) (fun _ => I) E
  insert : ∀ name vars, Ensures I (scope.insert name vars) (fun _ => I) E
  yield : ∀ site block default vars, (∀ e ∈ default, standard.fallback e) →
    Ensures I (scope.yield site block default vars) (fun _ => I) E
  openSection : ∀ site block inline vars, Ensures I (Scope.openSection site block inline vars) (fun _ => I) E
  closeSection : ∀ site mode vars, Ensures I (scope.closeSection site mode vars) (fun _ => I) E

variable {scope : Scope σ} {standard : Node.Standard} {I : Run σ → Prop} {E : ViewError → Prop}
  (fair : ∀ e, e ≠ .unbalancedEnd → E e) (keeps : scope.Keeps standard I E)

include fair keeps

theorem ensures_runInserted (site : Site) (name : Expr) (vars : Fields) :
    Ensures I (scope.runInserted site name vars) (fun _ => I) E := by
  refine ensures_bind _ _ (ensures_lift fair _ (site.calm_name vars name)) fun name => ?_
  refine ensures_bind _ _ ?_ fun _ => ensures_pure vars fun _ reached => reached
  exact fun run start => keeps.insert name vars run start.2

-- In a mutual block the linter takes a hypothesis for unused that a theorem only hands on to the others.
set_option linter.unusedSectionVars false in
mutual
theorem ensures_runNode (node : Node) (each : node.Each standard) (vars : Fields) :
    Ensures I (scope.runNode node vars) (fun _ => I) E := by
  match node with
  | .text content =>
      rw [Scope.runNode]
      refine ensures_bind _ _ (keeps.text content each) fun _ => ?_
      exact ensures_pure vars fun _ reached => reached
  | .comment _ =>
      rw [Scope.runNode]
      exact ensures_pure vars fun _ start => start
  | .echo e line =>
      rw [Scope.runNode]
      refine ensures_bind _ _ (ensures_lift fair _ ((scope.site line).calm_text vars e)) fun text => ?_
      refine ensures_bind _ _ ?_ fun _ => ensures_pure vars fun _ reached => reached
      exact fun run start => keeps.echo e line vars text each.1 start.1 run start.2
  | .conditional branches none line =>
      rw [Scope.runNode]
      exact ensures_runBranches _ branches each.1 _ (fun vars => ensures_pure vars fun _ start => start) vars
  | .conditional branches (some otherwise) line =>
      rw [Scope.runNode]
      exact ensures_runBranches _ branches each.1 _ (ensures_runNodes otherwise each.2.1) vars
  | .each header body line =>
      rw [Scope.runNode]
      refine ensures_bind _ _ (ensures_lift fair _ (Site.calm_items _ vars header.source)) fun items => ?_
      intro run start
      rw [Loop.each_eq]
      exact ensures_turns fair _ (ensures_runNodes body each.2.1) _ _ _ (.each header items) vars run start.2
  | .counted header body line =>
      rw [Scope.runNode]
      refine ensures_bind _ _ (ensures_lift fair _ (Site.calm_applyAll _ vars header.init)) fun vars => ?_
      intro run start
      rw [Loop.counted_eq]
      exact ensures_turns fair _ (ensures_runNodes body each.2.1) _ _ _ (.counted header) vars run start.2
  | .whilst test body line =>
      rw [Scope.runNode]
      intro run start
      rw [Loop.whilst_eq]
      exact ensures_turns fair _ (ensures_runNodes body each.2.1) _ _ _ (.whilst test) vars run start
  | .extend name line =>
      rw [Scope.runNode]
      exact keeps.extend _ name vars
  | .insert name line =>
      rw [Scope.runNode]
      exact ensures_runInserted fair keeps _ name vars
  | .yield block default line =>
      rw [Scope.runNode]
      exact keeps.yield _ block default vars each.2.1
  | .openSection block inline line =>
      rw [Scope.runNode]
      exact keeps.openSection _ block inline vars
  | .closeSection mode line =>
      rw [Scope.runNode]
      exact keeps.closeSection _ mode vars

theorem ensures_runNodes (nodes : List Node) (each : Node.EachOf standard nodes) (vars : Fields) :
    Ensures I (scope.runNodes nodes vars) (fun _ => I) E := by
  match nodes with
  | [] =>
      rw [Scope.runNodes]
      exact ensures_pure vars fun _ start => start
  | node :: rest =>
      intro run start
      have ended := ensures_runNode node each.1 vars run start
      rw [Scope.runNodes]
      dsimp only
      generalize scope.runNode node vars run = result at ended
      cases ended with
      | ok reached => exact ensures_runNodes rest each.2 _ _ reached
      | error failed => exact .error failed

theorem ensures_runBranches (site : Site) (branches : List (Expr × List Node))
    (each : Node.EachBranch standard branches) (last : Body σ)
    (final : ∀ vars, Ensures I (last vars) (fun _ => I) E) (vars : Fields) :
    Ensures I (scope.runBranches site branches last vars) (fun _ => I) E := by
  match branches with
  | [] =>
      rw [Scope.runBranches]
      exact final vars
  | (test, body) :: rest =>
      intro run start
      rw [Scope.runBranches]
      dsimp only
      split
      · exact ensures_runNodes body each.2.1 vars run start
      · exact ensures_runBranches site rest each.2.2 last final vars run start
      · rename_i e failed
        exact .error (fair e (site.calm_test vars test e failed))
end

end Nodes

end Stencil
