import Stencil.Proofs.Program.Mentions
import Stencil.Proofs.Render.Bounds

set_option autoImplicit false

namespace Stencil

def ViewError.evaluated? : ViewError → Option Site
  | .undefinedVariable site _ _ | .evaluation site _ => some site
  | _ => none

inductive Site.Fails (site : Site) (vars : Fields) (e : Expr) (error : ViewError) : Prop where
  | value (failed : site.evaluate vars e = .error error)
  | name (failed : site.name vars e = .error error)
  | items (failed : site.items vars e = .error error)

structure Culprit where
  template : String
  place : Nat
  vars : Fields

abbrev Blame (σ : Type) : Type := Fields → Run σ → Option Culprit

namespace Loop.Form

def tests : Loop.Form → List Expr
  | .whilst test => [test]
  | .counted header => header.condition.toList
  | .each _ _ => []

def steps : Loop.Form → List Assignment
  | .counted header => header.step
  | _ => []

end Loop.Form

namespace Scope

variable {σ : Type} (scope : Scope σ)

def blame {α : Type} (place : Nat) (vars : Fields) : Except ViewError α → Option Culprit
  | .ok _ => none
  | .error _ => some ⟨scope.template, place, vars⟩

def blamePart (site : Site) (place : Nat) (vars : Fields) : Option Expr → Option Culprit
  | none => none
  | some e => scope.blame place vars (site.evaluate vars e)

def blameAssignments (site : Site) (place : Nat) (vars : Fields) : List Assignment → Option Culprit
  | [] => none
  | assignment :: rest =>
      match assignment.apply site vars with
      | .ok changed => blameAssignments site (place + 1) changed rest
      | .error _ => some ⟨scope.template, place, vars⟩

-- `test` and `step` are the places of what is asked before a round and of what is done after it.
def blameRounds (site : Site) (test step : Nat) (body : Body σ) (inBody : Blame σ) (left : Nat) (form : Loop.Form) :
    Blame σ :=
  fun vars run =>
    match form.next site vars with
    | .error _ => some ⟨scope.template, test, vars⟩
    | .ok none => none
    | .ok (some (bound, rest)) =>
        match left with
        | 0 => none
        | left + 1 =>
            match body bound run with
            | .error _ _ => inBody bound run
            | .ok changed after =>
                match form.after site changed with
                | .error _ => scope.blameAssignments site step changed form.steps
                | .ok ready => blameRounds site test step body inBody left rest ready after

mutual
def blameNode (inserted : String → Blame σ) (place : Nat) : Node → Blame σ
  | .text _ | .comment _ | .closeSection _ _ => fun _ _ => none
  | .echo e line => fun vars _ => scope.blamePart (scope.site line) place vars (some e)
  | .conditional branches none line => blameBranches inserted (scope.site line) place branches fun _ _ => none
  | .conditional branches (some otherwise) line =>
      blameBranches inserted (scope.site line) place branches
        (blameNodes inserted (place + (Node.branchMentions line branches).length) otherwise)
  | .each header body line => fun vars run =>
      match (scope.site line).items vars header.source with
      | .error _ => some ⟨scope.template, place, vars⟩
      | .ok items =>
          scope.blameRounds (scope.site line) place place (scope.runNodes body) (blameNodes inserted (place + 1) body)
            scope.limits.loopIterations (.each header items) vars run
  | .counted header body line => fun vars run =>
      match Assignment.applyAll (scope.site line) vars header.init with
      | .error _ => scope.blameAssignments (scope.site line) place vars header.init
      | .ok bound =>
          let test := place + header.init.length
          scope.blameRounds (scope.site line) test (test + header.condition.toList.length) (scope.runNodes body)
            (blameNodes inserted (place + header.expressions.length) body) scope.limits.loopIterations
            (.counted header) bound run
  | .whilst test body line =>
      scope.blameRounds (scope.site line) place place (scope.runNodes body) (blameNodes inserted (place + 1) body)
        scope.limits.loopIterations (.whilst test)
  | .extend template line => fun vars _ => scope.blame place vars ((scope.site line).name vars template)
  | .insert template line => fun vars run =>
      match (scope.site line).name vars template with
      | .error _ => some ⟨scope.template, place, vars⟩
      | .ok name => inserted name vars run
  | .yield block part line | .openSection block part line => fun vars _ =>
      match (scope.site line).name vars block with
      | .error _ => some ⟨scope.template, place, vars⟩
      | .ok _ => scope.blamePart (scope.site line) (place + 1) vars part

def blameNodes (inserted : String → Blame σ) (place : Nat) : List Node → Blame σ
  | [] => fun _ _ => none
  | node :: rest => fun vars run =>
      match scope.runNode node vars run with
      | .error _ _ => blameNode inserted place node vars run
      | .ok changed after => blameNodes inserted (place + node.mentions.length) rest changed after

def blameBranches (inserted : String → Blame σ) (site : Site) (place : Nat) :
    List (Expr × List Node) → Blame σ → Blame σ
  | [], last => last
  | (test, body) :: rest, last => fun vars run =>
      match site.test vars test with
      | .error _ => some ⟨scope.template, place, vars⟩
      | .ok true => blameNodes inserted (place + 1) body vars run
      | .ok false => blameBranches inserted site (place + 1 + (Node.listMentions body).length) rest last vars run
end

end Scope

section

variable {σ : Type} (known : Cache σ → Prop) (points : String → Nat → Mention → Prop)

inductive Explained {α : Type} : Option Culprit → EStateM.Result ViewError (Run σ) α → Prop where
  | done {a : α} {run : Run σ} (kept : known run.cache) : Explained none (.ok a run)
  | other {e : ViewError} {run : Run σ} (plain : e.evaluated? = none) : Explained none (.error e run)
  | culprit {template : String} {place : Nat} {vars : Fields} {mention : Mention} {e : ViewError} {run : Run σ}
      (stands : points template place mention)
      (fails : Site.Fails ⟨template, mention.line⟩ vars mention.expression e) :
      Explained (some ⟨template, place, vars⟩) (.error e run)

def Stands (points : Nat → Mention → Prop) (place : Nat) (mentions : List Mention) : Prop :=
  ∀ i mention, mentions[i]? = some mention → points (place + i) mention

end

section

variable {points : Nat → Mention → Prop} {place : Nat}

theorem stands_all (mentions : List Mention) : Stands (fun i mention => mentions[i]? = some mention) 0 mentions := by
  intro i mention found
  rw [Nat.zero_add]
  exact found

theorem stands_nil : Stands points place [] := by
  intro i mention found
  cases found

theorem stands_cons {mention : Mention} {rest : List Mention} (stands : Stands points place (mention :: rest)) :
    points place mention ∧ Stands points (place + 1) rest := by
  refine ⟨stands 0 mention rfl, fun i other found => ?_⟩
  rw [Nat.add_assoc, Nat.add_comm 1]
  exact stands (i + 1) other found

theorem stands_append {first second : List Mention} (stands : Stands points place (first ++ second)) :
    Stands points place first ∧ Stands points (place + first.length) second := by
  constructor
  · intro i mention found
    apply stands
    rw [List.getElem?_append_left (List.getElem?_eq_some_iff.mp found).1]
    exact found
  · intro i mention found
    rw [Nat.add_assoc]
    apply stands
    rw [List.getElem?_append_right (Nat.le_add_right _ _), Nat.add_sub_cancel_left]
    exact found

end

namespace Site

variable (site : Site) (vars : Fields) (e : Expr) (error : ViewError)

theorem evaluated_fault (fault : EvalFault) : (site.fault vars fault).evaluated? = some site := by
  cases fault <;> rfl

theorem evaluated_evaluate (failed : site.evaluate vars e = .error error) : error.evaluated? = some site := by
  rw [evaluate] at failed
  cases result : Stencil.evaluate vars e with
  | ok value =>
      rw [result] at failed
      cases failed
  | error fault =>
      rw [result] at failed
      obtain rfl := Except.error.inj failed
      exact site.evaluated_fault vars fault

theorem evaluated_of_fails (fails : site.Fails vars e error) : error.evaluated? = some site := by
  cases fails with
  | value failed => exact site.evaluated_evaluate vars e error failed
  | name failed =>
      rw [name] at failed
      split at failed
      · cases failed
      · cases failed
      · obtain rfl := Except.error.inj failed
        rfl
      · rename_i fault result
        obtain rfl := Except.error.inj failed
        exact site.evaluated_evaluate vars e fault result
  | items failed =>
      rw [items] at failed
      split at failed
      · cases failed
      · cases failed
      · cases failed
      · obtain rfl := Except.error.inj failed
        rfl
      · rename_i fault result
        obtain rfl := Except.error.inj failed
        exact site.evaluated_evaluate vars e fault result

theorem fails_of_map {α : Type} (change : Value → α) (failed : (site.evaluate vars e).map change = .error error) :
    site.Fails vars e error :=
  .value ((map_eq_error _ _ _).mp failed)

end Site

section

variable {σ : Type} {known : Cache σ → Prop} {points : String → Nat → Mention → Prop} (scope : Scope σ)

theorem evaluated_block (limits : Limits) (name default : String) (session : Session) (e : ViewError)
    (failed : session.block limits name default = .error e) : e.evaluated? = none := by
  rw [Session.block] at failed
  split at failed
  · obtain rfl := Except.error.inj failed
    rfl
  · cases failed

theorem evaluated_finish (overwrite : Bool) (session : Session) (e : ViewError)
    (failed : session.finish overwrite = .error e) : e.evaluated? = none := by
  rw [Session.finish] at failed
  split at failed
  · obtain rfl := Except.error.inj failed
    rfl
  · cases failed

theorem explained_printBlock (name default : String) (vars : Fields) (run : Run σ) (kept : known run.cache) :
    Explained known points none ((scope.printBlock name default >>= fun _ => pure vars) run) := by
  simp only [Scope.printBlock, bind, EStateM.bind, Run.read, Run.lift]
  cases printed : run.session.block scope.limits name default with
  | error e => exact .other (evaluated_block _ _ _ _ _ printed)
  | ok text => exact .done kept

theorem explained_finish {α : Type} (overwrite : Bool) (next : String → Action (Run σ) α) (run : Run σ)
    (kept : known run.cache)
    (more : ∀ name after, known after.cache → Explained known points none (next name after)) :
    Explained known points none ((Run.finish overwrite >>= next) run) := by
  simp only [bind, EStateM.bind, Run.finish]
  cases ended : run.session.finish overwrite with
  | error e => exact .other (evaluated_finish _ _ _ ended)
  | ok pair => exact more pair.1 _ kept

theorem explained_closeSection (site : Site) (mode : EndMode) (vars : Fields) (run : Run σ) (kept : known run.cache) :
    Explained known points none (scope.closeSection site mode vars run) := by
  rw [Scope.closeSection, Action.get_bind]
  by_cases outside : run.session.height ≤ scope.floor
  · simp only [outside, if_true]
    exact .other rfl
  · simp only [outside, if_false]
    apply explained_finish _ _ run kept
    intro name after kept
    by_cases shown : mode = .show
    · simp only [shown, if_true]
      exact explained_printBlock scope name "" vars after kept
    · simp only [shown, if_false]
      exact .done kept

theorem explained_assignments {α : Type} (line place : Nat) (vars : Fields) (assignments : List Assignment) (run : Run σ)
    (stands : Stands (points scope.template) place (mentionsOn line (assignments.map Assignment.value))) (e : ViewError)
    (failed : Assignment.applyAll (scope.site line) vars assignments = .error e) :
    Explained known points (scope.blameAssignments (scope.site line) place vars assignments)
      (.error e run : EStateM.Result ViewError (Run σ) α) := by
  induction assignments generalizing place vars with
  | nil => cases failed
  | cons assignment rest ih =>
      obtain ⟨first, others⟩ := stands_cons stands
      rw [Assignment.applyAll] at failed
      rw [Scope.blameAssignments]
      cases applied : assignment.apply (scope.site line) vars with
      | ok changed =>
          rw [applied] at failed
          exact ih (place + 1) changed others failed
      | error fault =>
          rw [applied] at failed
          obtain rfl := Except.error.inj failed
          exact .culprit first (Site.fails_of_map _ _ _ _ _ applied)

end

namespace Loop.Form

variable (site : Site) (vars : Fields) (form : Form)

theorem fails_of_next (e : ViewError) (failed : form.next site vars = .error e) :
    ∃ test, form.tests = [test] ∧ site.Fails vars test e := by
  cases form with
  | whilst test => exact ⟨test, rfl, site.fails_of_map _ _ _ _ ((map_eq_error _ _ _).mp failed)⟩
  | each header items =>
      cases items with
      | nil => cases failed
      | cons item rest => cases failed
  | counted header =>
      have failed := (map_eq_error _ _ _).mp failed
      cases asked : header.condition with
      | none =>
          rw [asked] at failed
          cases failed
      | some test =>
          rw [asked] at failed
          exact ⟨test, congrArg Option.toList asked, site.fails_of_map _ _ _ _ failed⟩

theorem next_keeps (bound : Fields) (rest : Form) (goesOn : form.next site vars = .ok (some (bound, rest))) :
    rest.tests = form.tests ∧ rest.steps = form.steps := by
  have same (other : Form) (asked : Except ViewError Bool)
      (goesOn : asked.map (other.goesOn vars) = .ok (some (bound, rest))) : rest = other := by
    cases asked with
    | error e => cases goesOn
    | ok goes =>
        cases goes with
        | false => cases goesOn
        | true => exact (congrArg Prod.snd (Option.some.inj (Except.ok.inj goesOn))).symm
  cases form with
  | whilst test =>
      obtain rfl := same (.whilst test) _ goesOn
      exact ⟨rfl, rfl⟩
  | counted header =>
      obtain rfl := same (.counted header) _ goesOn
      exact ⟨rfl, rfl⟩
  | each header items =>
      cases items with
      | nil => cases goesOn
      | cons item left =>
          obtain ⟨_, rfl⟩ := Prod.mk.inj (Option.some.inj (Except.ok.inj goesOn))
          exact ⟨rfl, rfl⟩

theorem after_fails (e : ViewError) (failed : form.after site vars = .error e) :
    Assignment.applyAll site vars form.steps = .error e := by
  cases form with
  | counted header => exact failed
  | whilst _ | each _ _ => cases failed

end Loop.Form

section

variable {σ : Type} {known : Cache σ → Prop} {points : String → Nat → Mention → Prop} {scope : Scope σ}

theorem known_of_explained {α : Type} {culprit : Option Culprit} {a : α} {run : Run σ}
    (explained : Explained known points culprit (.ok a run)) : known run.cache := by
  cases explained with
  | done kept => exact kept

theorem explained_bind_pure {α β : Type} {culprit : Option Culprit} (action : Action (Run σ) α) (b : β) (run : Run σ) :
    Explained known points culprit ((action >>= fun _ => pure b) run) ↔ Explained known points culprit (action run) := by
  simp only [bind, EStateM.bind]
  cases action run with
  | ok a after =>
      constructor
      · intro explained
        cases explained with
        | done kept => exact .done kept
      · intro explained
        cases explained with
        | done kept => exact .done kept
  | error e after =>
      constructor
      · intro explained
        cases explained with
        | other plain => exact .other plain
        | culprit stands fails => exact .culprit stands fails
      · intro explained
        cases explained with
        | other plain => exact .other plain
        | culprit stands fails => exact .culprit stands fails

theorem explained_next {α : Type} (line test : Nat) (form : Loop.Form)
    (tests : Stands (points scope.template) test (mentionsOn line form.tests)) (vars : Fields) (e : ViewError) (run : Run σ)
    (failed : form.next (scope.site line) vars = .error e) :
    Explained known points (some ⟨scope.template, test, vars⟩) (.error e run : EStateM.Result ViewError (Run σ) α) := by
  obtain ⟨expression, alone, fails⟩ := form.fails_of_next _ vars e failed
  rw [alone] at tests
  exact .culprit (stands_cons tests).1 fails

theorem explained_turns (line test step limit : Nat) (body : Body σ) (inBody : Blame σ)
    (inside : ∀ vars run, known run.cache → Explained known points (inBody vars run) (body vars run))
    (left : Nat) (form : Loop.Form) (tests : Stands (points scope.template) test (mentionsOn line form.tests))
    (steps : Stands (points scope.template) step (mentionsOn line (form.steps.map Assignment.value)))
    (vars : Fields) (run : Run σ) (kept : known run.cache) :
    Explained known points (scope.blameRounds (scope.site line) test step body inBody left form vars run)
      (Loop.turns (scope.site line) limit body left form vars run) := by
  induction left generalizing form vars run with
  | zero =>
      rw [Scope.blameRounds, Loop.turns]
      cases asked : form.next (scope.site line) vars with
      | error e => exact explained_next line test form tests vars e run asked
      | ok next =>
          cases next with
          | none => exact .done kept
          | some next => exact .other rfl
  | succ left ih =>
      rw [Scope.blameRounds, Loop.turns]
      cases asked : form.next (scope.site line) vars with
      | error e => exact explained_next line test form tests vars e run asked
      | ok next =>
          cases next with
          | none => exact .done kept
          | some next =>
              obtain ⟨bound, rest⟩ := next
              obtain ⟨sameTests, sameSteps⟩ := form.next_keeps _ vars bound rest asked
              have ran := inside bound run kept
              dsimp only
              cases ended : body bound run with
              | error e after =>
                  rw [ended] at ran
                  exact ran
              | ok changed after =>
                  rw [ended] at ran
                  have kept := known_of_explained ran
                  dsimp only
                  cases stepped : form.after (scope.site line) changed with
                  | error e =>
                      exact explained_assignments scope line step changed form.steps after steps e
                        (form.after_fails _ changed e stepped)
                  | ok ready => exact ih rest (sameTests ▸ tests) (sameSteps ▸ steps) ready after kept

variable {inserted : String → Blame σ}
  (inside : ∀ name vars run, known run.cache → Explained known points (inserted name vars run) (scope.insert name vars run))

include inside

-- By recursion as in the execution. What stands in a part of a node is counted on from what stands before this part, and
-- the cache stays known from one part to the next.
-- In a mutual block the linter takes a hypothesis for unused that a theorem only hands on to the others.
set_option linter.unusedSectionVars false in
mutual
theorem explained_runNode (node : Node) (place : Nat) (stands : Stands (points scope.template) place node.mentions)
    (vars : Fields) (run : Run σ) (kept : known run.cache) :
    Explained known points (scope.blameNode inserted place node vars run) (scope.runNode node vars run) := by
  match node with
  | .text _ | .comment _ =>
      rw [Scope.blameNode, Scope.runNode]
      exact .done kept
  | .closeSection mode line =>
      rw [Scope.blameNode, Scope.runNode]
      exact explained_closeSection scope _ mode vars run kept
  | .echo e line =>
      rw [Scope.blameNode, Scope.runNode]
      simp only [bind, EStateM.bind, Run.lift, Site.text, Scope.blamePart]
      cases asked : (scope.site line).evaluate vars e with
      | error fault => exact .culprit (stands_cons stands).1 (.value asked)
      | ok value => exact .done kept
  | .extend template line =>
      rw [Scope.blameNode, Scope.runNode, Scope.extend]
      simp only [bind, EStateM.bind, Run.lift]
      cases asked : (scope.site line).name vars template with
      | error fault => exact .culprit (stands_cons stands).1 (.name asked)
      | ok name => exact .done kept
  | .insert template line =>
      rw [Scope.blameNode, Scope.runNode, Scope.runInserted]
      simp only [bind, EStateM.bind, Run.lift]
      cases asked : (scope.site line).name vars template with
      | error fault => exact .culprit (stands_cons stands).1 (.name asked)
      | ok name => exact (explained_bind_pure (scope.insert name vars) vars run).mpr (inside name vars run kept)
  | .yield block part line =>
      rw [Scope.blameNode, Scope.runNode, Scope.yield]
      simp only [bind, EStateM.bind, Run.lift]
      cases asked : (scope.site line).name vars block with
      | error fault => exact .culprit (stands_cons stands).1 (.name asked)
      | ok name =>
          cases part with
          | none => exact explained_printBlock scope name "" vars run kept
          | some e =>
              simp only [Scope.blamePart, Site.text]
              cases evaluated : (scope.site line).evaluate vars e with
              | error fault => exact .culprit (stands_cons (stands_cons stands).2).1 (.value evaluated)
              | ok value => exact explained_printBlock scope name value.output vars run kept
  | .openSection block part line =>
      rw [Scope.blameNode, Scope.runNode, Scope.openSection]
      simp only [bind, EStateM.bind, Run.lift]
      cases asked : (scope.site line).name vars block with
      | error fault => exact .culprit (stands_cons stands).1 (.name asked)
      | ok name =>
          cases part with
          | none => exact .done kept
          | some e =>
              simp only [Scope.blamePart, Site.text]
              cases evaluated : (scope.site line).evaluate vars e with
              | error fault => exact .culprit (stands_cons (stands_cons stands).2).1 (.value evaluated)
              | ok value =>
                  exact explained_finish false (fun _ => pure vars)
                    ⟨run.cache, (run.session.begin name).write (Text.escapeHtml value.output)⟩ kept
                    fun _ _ kept => .done kept
  | .conditional branches none line =>
      rw [Scope.blameNode, Scope.runNode, Scope.runOtherwise]
      exact explained_runBranches line place branches stands (fun _ _ => none) pure (fun _ _ kept => .done kept) vars run kept
  | .conditional branches (some otherwise) line =>
      rw [Scope.blameNode, Scope.runNode, Scope.runOtherwise]
      obtain ⟨tests, last⟩ := stands_append stands
      exact explained_runBranches line place branches tests _ _ (explained_runNodes otherwise _ last) vars run kept
  | .each header body line =>
      obtain ⟨source, inner⟩ := stands_append stands
      rw [Scope.blameNode, Scope.runNode]
      simp only [bind, EStateM.bind, Run.lift]
      cases asked : (scope.site line).items vars header.source with
      | error fault => exact .culprit (stands_cons source).1 (.items asked)
      | ok items =>
          dsimp only
          rw [Loop.each_eq]
          exact explained_turns line place place _ _ _ (explained_runNodes body _ inner) _ (.each header items)
            stands_nil stands_nil vars run kept
  | .counted header body line =>
      obtain ⟨expressions, inner⟩ := stands_append stands
      rw [ForHeader.expressions, mentionsOn_append, mentionsOn_append] at expressions
      obtain ⟨init, others⟩ := stands_append expressions
      obtain ⟨condition, step⟩ := stands_append others
      simp only [length_mentionsOn, List.length_map] at inner condition step
      rw [Scope.blameNode, Scope.runNode]
      simp only [bind, EStateM.bind, Run.lift]
      cases bound : Assignment.applyAll (scope.site line) vars header.init with
      | error fault => exact explained_assignments scope line place vars header.init run init fault bound
      | ok changed =>
          dsimp only
          rw [Loop.counted_eq]
          exact explained_turns line _ _ _ _ _ (explained_runNodes body _ inner) _ (.counted header) condition step
            changed run kept
  | .whilst test body line =>
      obtain ⟨source, inner⟩ := stands_append stands
      rw [Scope.blameNode, Scope.runNode, Loop.whilst_eq]
      exact explained_turns line place place _ _ _ (explained_runNodes body _ inner) _ (.whilst test) source
        stands_nil vars run kept

theorem explained_runNodes (nodes : List Node) (place : Nat)
    (stands : Stands (points scope.template) place (Node.listMentions nodes)) (vars : Fields) (run : Run σ)
    (kept : known run.cache) :
    Explained known points (scope.blameNodes inserted place nodes vars run) (scope.runNodes nodes vars run) := by
  match nodes with
  | [] =>
      rw [Scope.blameNodes, Scope.runNodes]
      exact .done kept
  | node :: rest =>
      obtain ⟨first, others⟩ := stands_append stands
      have ran := explained_runNode node place first vars run kept
      rw [Scope.blameNodes, Scope.runNodes]
      dsimp only
      cases ended : scope.runNode node vars run with
      | error e after =>
          rw [ended] at ran
          exact ran
      | ok changed after =>
          rw [ended] at ran
          exact explained_runNodes rest _ others changed after (known_of_explained ran)

theorem explained_runBranches (line place : Nat) (branches : List (Expr × List Node))
    (stands : Stands (points scope.template) place (Node.branchMentions line branches)) (inLast : Blame σ) (last : Body σ)
    (final : ∀ vars run, known run.cache → Explained known points (inLast vars run) (last vars run))
    (vars : Fields) (run : Run σ) (kept : known run.cache) :
    Explained known points (scope.blameBranches inserted (scope.site line) place branches inLast vars run)
      (scope.runBranches (scope.site line) branches last vars run) := by
  match branches with
  | [] =>
      rw [Scope.blameBranches, Scope.runBranches]
      exact final vars run kept
  | (test, body) :: rest =>
      obtain ⟨first, others⟩ := stands_cons stands
      obtain ⟨inner, others⟩ := stands_append others
      rw [Scope.blameBranches, Scope.runBranches]
      dsimp only
      cases asked : (scope.site line).test vars test with
      | error fault => exact .culprit first (Site.fails_of_map _ _ _ _ _ asked)
      | ok goes =>
          cases goes with
          | true => exact explained_runNodes body _ inner vars run kept
          | false => exact explained_runBranches line _ rest others inLast last final vars run kept
end

end

end Stencil
