import Stencil.Proofs.Render.Work

set_option autoImplicit false

namespace Stencil.Renderer

open Stencil.Action Session

variable {σ : Type} [Store σ] (renderer : Renderer)

section Nodes

variable (left : Nat) (template : String) (floor : Nat)

def scope : Scope σ := ⟨template, floor, renderer.limits, renderer.insert left⟩

def proceed (vars : Fields) (run : Run σ) : Start σ → EStateM.Result ViewError (Run σ) Fields
  | .ends result => result
  | .body nodes => (renderer.scope left template floor).runNodes nodes vars run
  | .loop site form bound body => Task.run (renderer.scope left template floor) (.rounds site form body 0) bound run
  | .template name program cache =>
      leave run.session name vars
        ((renderer.scope (left - 1) name run.session.height).runNodes program.nodes vars ⟨cache, run.session.deeper⟩)

theorem insert_missing (name : String) (vars : Fields) (run : Run σ) (e : ViewError) (cache : Cache σ)
    (failed : Cache.ensureFresh renderer.compiler name run.cache = .error e cache) :
    renderer.insert (left + 1) name vars run = .error e { run with cache } := by
  simp only [insert, bind, EStateM.bind, Run.inCache, failed]

theorem insert_found (name : String) (vars : Fields) (run : Run σ) (program : Program) (cache : Cache σ)
    (found : Cache.ensureFresh renderer.compiler name run.cache = .ok program cache) :
    (renderer.insert (left + 1) name vars >>= fun _ => pure vars) run
      = leave run.session name vars
          ((renderer.scope left name run.session.height).runNodes program.nodes vars ⟨cache, run.session.deeper⟩) := by
  have got : (get : Action (Run σ) (Run σ)) ⟨cache, run.session⟩ =
      .ok ⟨cache, run.session⟩ ⟨cache, run.session⟩ := rfl
  simp only [insert, bind, EStateM.bind, Run.inCache, found, got, inserted]
  change _ = leave run.session name vars (Scope.runNodes ⟨name, run.session.height, renderer.limits, renderer.insert left⟩
    program.nodes vars ⟨cache, run.session.deeper⟩)
  cases Scope.runNodes ⟨name, run.session.height, renderer.limits, renderer.insert left⟩ program.nodes vars
      ⟨cache, run.session.deeper⟩ with
  | error e after => rfl
  | ok changed after =>
      have same : checkClosed name run.session.height (after.session.shallower run.session.contentClaimed)
          = checkClosed name run.session.height after.session := rfl
      simp only [Run.read, same, leave]
      cases checkClosed name run.session.height after.session with
      | error e => rfl
      | ok _ => rfl

theorem proceed_insert (name : String) (vars : Fields) (run : Run σ)
    (level : run.session.includeDepth + left = renderer.limits.includeDepth) :
    (renderer.insert left name vars >>= fun _ => pure vars) run
      = renderer.proceed left template floor vars run
          (if renderer.limits.includeDepth ≤ run.session.includeDepth then
            .ends (.error (.tooDeep .inclusion renderer.limits.includeDepth name) run)
          else
            match Cache.ensureFresh renderer.compiler name run.cache with
            | .ok program cache => .template name program cache
            | .error error cache => .ends (.error error { run with cache })) := by
  cases left with
  | zero =>
      rw [if_pos (by omega)]
      rfl
  | succ left =>
      rw [if_neg (by omega)]
      cases found : Cache.ensureFresh renderer.compiler name run.cache with
      | ok program cache => exact insert_found renderer left name vars run program cache found
      | error e cache =>
          simp only [bind, EStateM.bind, insert_missing renderer left name vars run e cache found]
          rfl

theorem runNode_start (node : Node) (vars : Fields) (run : Run σ)
    (level : run.session.includeDepth + left = renderer.limits.includeDepth) :
    (renderer.scope left template floor).runNode node vars run
      = renderer.proceed left template floor vars run (renderer.start template floor vars run node) := by
  have site (line : Nat) : (renderer.scope left template floor : Scope σ).site line = ⟨template, line⟩ := rfl
  cases node with
  | text _ | comment _ =>
      change _ = Scope.runNode ⟨template, floor, renderer.limits, renderer.insert 0⟩ _ vars run
      rw [scope, Scope.runNode, Scope.runNode]
  | echo _ _ | extend _ _ | yield _ _ _ | openSection _ _ _ | closeSection _ _ =>
      change _ = Scope.runNode ⟨template, floor, renderer.limits, renderer.insert 0⟩ _ vars run
      rw [scope, Scope.runNode, Scope.runNode]
      rfl
  | conditional branches otherwise line =>
      rw [Scope.runNode, runBranches_eq, start, site]
      cases choose ⟨template, line⟩ vars branches otherwise with
      | ok nodes => rfl
      | error e => rfl
  | each header body line =>
      rw [Scope.runNode, start]
      simp only [bind, EStateM.bind, Run.lift, site]
      cases Site.items ⟨template, line⟩ vars header.source with
      | ok items => exact Loop.each_eq _ _ _ header _ items vars run
      | error e => rfl
  | counted header body line =>
      rw [Scope.runNode, start]
      simp only [bind, EStateM.bind, Run.lift, site]
      cases Assignment.applyAll ⟨template, line⟩ vars header.init with
      | ok bound => exact Loop.counted_eq _ _ _ header _ bound run
      | error e => rfl
  | whilst test body line =>
      rw [Scope.runNode, start]
      exact Loop.whilst_eq _ _ _ test _ vars run
  | insert name line =>
      rw [Scope.runNode, Scope.runInserted, start, site]
      simp only [bind, EStateM.bind, Run.lift]
      cases Site.name ⟨template, line⟩ vars name with
      | error e => rfl
      | ok name => exact proceed_insert renderer left template floor name vars run level

end Nodes

section Starts

variable {renderer} {template : String} {floor : Nat} {vars : Fields} {run : Run σ} {node : Node}

theorem start_template (name : String) (program : Program) (cache : Cache σ)
    (started : renderer.start template floor vars run node = .template name program cache) :
    run.session.includeDepth < renderer.limits.includeDepth := by
  cases node with
  | insert name line =>
      rw [start] at started
      split at started
      · cases started
      · split at started
        · cases started
        · omega
  | conditional _ _ _ | each _ _ _ | counted _ _ _ =>
      rw [start] at started
      split at started
      · cases started
      · cases started
  | _ => cases started

theorem start_body (nodes : List Node) (started : renderer.start template floor vars run node = .body nodes) :
    sizeOf nodes < sizeOf node := by
  cases node with
  | conditional branches otherwise line =>
      rw [start] at started
      split at started
      · rename_i chosen
        obtain rfl := Start.body.inj started
        exact choose_smaller _ _ branches otherwise line _ chosen
      · cases started
  | each _ _ _ | counted _ _ _ =>
      rw [start] at started
      split at started
      · cases started
      · cases started
  | insert _ _ =>
      rw [start] at started
      split at started
      · cases started
      · split at started
        · cases started
        · split at started
          · cases started
          · cases started
  | _ => cases started

theorem start_loop (site : Site) (form : Loop.Form) (bound : Fields) (body : List Node)
    (started : renderer.start template floor vars run node = .loop site form bound body) :
    sizeOf body < sizeOf node := by
  cases node with
  | conditional _ _ _ =>
      rw [start] at started
      split at started
      · cases started
      · cases started
  | each header body line =>
      rw [start] at started
      split at started
      · obtain ⟨_, _, _, rfl⟩ := Start.loop.inj started
        rw [Node.each.sizeOf_spec]
        omega
      · cases started
  | counted header body line =>
      rw [start] at started
      split at started
      · obtain ⟨_, _, _, rfl⟩ := Start.loop.inj started
        rw [Node.counted.sizeOf_spec]
        omega
      · cases started
  | whilst test body line =>
      obtain ⟨_, _, _, rfl⟩ := Start.loop.inj started
      rw [Node.whilst.sizeOf_spec]
      omega
  | insert _ _ =>
      rw [start] at started
      split at started
      · cases started
      · split at started
        · cases started
        · split at started
          · cases started
          · cases started
  | _ => cases started

end Starts

theorem keeps_scope (left : Nat) (template : String) (floor : Nat) (before : Session) :
    Scope.Keeps (renderer.scope left template floor : Scope σ) Node.Standard.free (Run.Sparing floor before)
      fun _ => True := by
  have fresh name : Ensures (fun _ : Cache σ => True) (Cache.ensureFresh renderer.compiler name) (fun _ _ => True)
      fun _ => True := by
    intro cache _
    cases Cache.ensureFresh renderer.compiler name cache with
    | ok _ _ => exact .ok trivial
    | error _ _ => exact .error trivial
  exact scope_sparing (fun _ _ => trivial) template renderer.limits _ floor before
    (ensures_insert renderer (fun _ _ => trivial) fresh left)

section Runs

variable {renderer} {left : Nat} {template : String} {floor : Nat}

theorem spares_node (node : Node) (vars changed : Fields) (run after : Run σ) (above : floor ≤ run.session.height)
    (ran : (renderer.scope left template floor).runNode node vars run = .ok changed after) :
    run.session.Spares floor after.session := by
  have ended := ensures_runNode (fun _ _ => trivial) (keeps_scope renderer left template floor run.session)
    node (Node.each_free node) vars run
    (spares_self above)
  rw [ran] at ended
  cases ended with
  | ok spares => exact spares

theorem spares_nodes (nodes : List Node) (vars changed : Fields) (run after : Run σ)
    (above : floor ≤ run.session.height)
    (ran : (renderer.scope left template floor).runNodes nodes vars run = .ok changed after) :
    run.session.Spares floor after.session := by
  have ended := ensures_runNodes (fun _ _ => trivial) (keeps_scope renderer left template floor run.session)
    nodes (Node.eachOf_free nodes) vars run
    (spares_self above)
  rw [ran] at ended
  cases ended with
  | ok spares => exact spares

-- By induction on the rules. Each one does what the executor does with as much left as the counts leave it.
theorem result_of_executes {task : Task} {vars : Fields} {run : Run σ} {work : Work}
    {result : EStateM.Result ViewError (Run σ) Fields}
    (executed : renderer.Executes template floor task vars run work result)
    (level : run.session.includeDepth + left = renderer.limits.includeDepth) (above : floor ≤ run.session.height)
    (inTime : task.InTime renderer.limits) :
    result = task.run (renderer.scope left template floor) vars run ∧ work.Within renderer.limits := by
  induction executed generalizing left with
  | ends started =>
      refine ⟨?_, Work.within_one _⟩
      rw [Task.run, runNode_start renderer _ _ _ _ _ _ level, started, proceed]
  | body started ran ih =>
      obtain ⟨same, within⟩ := ih level above trivial
      refine ⟨?_, Work.within_join (Work.within_one _) within⟩
      rw [Task.run, runNode_start renderer _ _ _ _ _ _ level, started]
      exact same
  | loop started ran ih =>
      obtain ⟨same, within⟩ := ih level above (Nat.zero_le _)
      refine ⟨?_, Work.within_join (Work.within_one _) within⟩
      rw [Task.run, runNode_start renderer _ _ _ _ _ _ level, started]
      exact same
  | template started ran ih =>
      have room := start_template _ _ _ started
      obtain ⟨less, rfl⟩ : ∃ less, left = less + 1 := ⟨left - 1, by omega⟩
      obtain ⟨same, within⟩ := @ih less (by rw [deeper]; dsimp only; omega) (Nat.le_refl _) trivial
      refine ⟨?_, Work.within_join ⟨Nat.zero_le _, room⟩ within⟩
      rw [Task.run, runNode_start renderer _ _ _ _ _ _ level, started, proceed, same]
      rfl
  | nil => exact ⟨rfl, Nat.zero_le _, Nat.zero_le _⟩
  | failed first ih =>
      obtain ⟨same, within⟩ := ih level above trivial
      rw [Task.run] at same
      refine ⟨?_, within⟩
      rw [Task.run, Scope.runNodes]
      simp only [← same]
  | next first others ihFirst ihOthers =>
      obtain ⟨same, within⟩ := ihFirst level above trivial
      rw [Task.run] at same
      have spares := spares_node _ _ _ _ _ above same.symm
      obtain ⟨same', within'⟩ := ihOthers (spares.depth.symm ▸ level) spares.above trivial
      refine ⟨?_, Work.within_join within within'⟩
      rw [Task.run, Scope.runNodes]
      simp only [← same]
      exact same'
  | finished turned =>
      refine ⟨?_, Work.within_rounds _ _ inTime⟩
      rw [Task.run]
      exact (Loop.turns_ends _ _ _ turned).symm
  | @broken template floor _ _ _ body _ _ _ run _ _ _ turned ran ih =>
      obtain ⟨same, within⟩ := ih level above trivial
      rw [Task.run] at same
      have more := Loop.turns_round ((renderer.scope left template floor).runNodes body) run _ _ turned
      refine ⟨?_, Work.within_join (Work.within_rounds _ _ more.1) within⟩
      rw [Task.run]
      refine Eq.trans ?_ more.2.symm
      rw [← same]
  | @stuck template floor _ _ _ body _ _ _ _ run _ _ _ turned ran stepped ih =>
      obtain ⟨same, within⟩ := ih level above trivial
      rw [Task.run] at same
      have more := Loop.turns_round ((renderer.scope left template floor).runNodes body) run _ _ turned
      refine ⟨?_, Work.within_join (Work.within_rounds _ _ more.1) within⟩
      rw [Task.run]
      refine Eq.trans ?_ more.2.symm
      simp only [← same, stepped]
  | @again template floor _ _ _ body _ _ _ _ _ run _ _ _ _ turned ran stepped others ihRan ihOthers =>
      obtain ⟨same, within⟩ := ihRan level above trivial
      rw [Task.run] at same
      have more := Loop.turns_round ((renderer.scope left template floor).runNodes body) run _ _ turned
      have spares := spares_nodes _ _ _ _ _ above same.symm
      obtain ⟨same', within'⟩ := ihOthers (spares.depth.symm ▸ level) spares.above more.1
      refine ⟨?_, Work.within_join within within'⟩
      rw [Task.run]
      refine Eq.trans ?_ more.2.symm
      simp only [← same, stepped]
      exact same'

-- Everything that is executed comes to an end. Each rule needs less than the one below it: templates that may
-- still be inserted, else a smaller part of the program, else rounds.
theorem exists_work (left : Nat) (template : String) (floor : Nat) (task : Task) (vars : Fields) (run : Run σ)
    (level : run.session.includeDepth + left = renderer.limits.includeDepth) (above : floor ≤ run.session.height) :
    ∃ work, renderer.Executes template floor task vars run work
      (task.run (renderer.scope left template floor) vars run) := by
  match task with
  | .node node =>
      rw [Task.run, runNode_start renderer _ _ _ _ _ _ level]
      cases started : renderer.start template floor vars run node with
      | ends result => exact ⟨_, .ends started⟩
      | body nodes =>
          have smaller := start_body nodes started
          obtain ⟨work, ran⟩ := exists_work left template floor (.nodes nodes) vars run level above
          exact ⟨_, .body started ran⟩
      | loop site form bound body =>
          have smaller := start_loop site form bound body started
          obtain ⟨work, ran⟩ := exists_work left template floor (.rounds site form body 0) bound run level above
          exact ⟨_, .loop started ran⟩
      | template name program cache =>
          have room := start_template name program cache started
          obtain ⟨work, ran⟩ := exists_work (left - 1) name run.session.height (.nodes program.nodes) vars
            ⟨cache, run.session.deeper⟩ (by rw [deeper]; dsimp only; omega) (Nat.le_refl _)
          exact ⟨_, .template started ran⟩
  | .nodes [] =>
      rw [Task.run, Scope.runNodes]
      exact ⟨_, .nil⟩
  | .nodes (node :: rest) =>
      obtain ⟨work, first⟩ := exists_work left template floor (.node node) vars run level above
      rw [Task.run] at first
      rw [Task.run, Scope.runNodes]
      dsimp only
      cases ran : (renderer.scope left template floor).runNode node vars run with
      | error e after =>
          rw [ran] at first
          exact ⟨_, .failed first⟩
      | ok changed after =>
          rw [ran] at first
          have spares := spares_node node vars changed run after above ran
          obtain ⟨more, others⟩ := exists_work left template floor (.nodes rest) changed after
            (spares.depth.symm ▸ level) spares.above
          exact ⟨_, .next first others⟩
  | .rounds site form body count =>
      cases turned : form.turn site renderer.limits.loopIterations count vars with
      | ends answer =>
          have whole : (Task.rounds site form body count).run (renderer.scope left template floor) vars run = _ :=
            Loop.turns_ends ((renderer.scope left template floor).runNodes body) run answer turned
          rw [whole]
          exact ⟨_, .finished turned⟩
      | round bound rest =>
          obtain ⟨below, more⟩ :=
            Loop.turns_round ((renderer.scope left template floor).runNodes body) run bound rest turned
          have whole : (Task.rounds site form body count).run (renderer.scope left template floor) vars run = _ := more
          rw [whole]
          obtain ⟨work, ran⟩ := exists_work left template floor (.nodes body) bound run level above
          rw [Task.run] at ran
          cases ended : (renderer.scope left template floor).runNodes body bound run with
          | error e after =>
              rw [ended] at ran
              exact ⟨_, .broken turned ran⟩
          | ok changed after =>
              rw [ended] at ran
              dsimp only
              cases stepped : form.after site changed with
              | error e => exact ⟨_, .stuck turned ran stepped⟩
              | ok ready =>
                  have spares := spares_nodes body bound changed run after above ended
                  obtain ⟨more, others⟩ := exists_work left template floor (.rounds site rest body (count + 1)) ready
                    after (spares.depth.symm ▸ level) spares.above
                  exact ⟨_, .again turned ran stepped others⟩
termination_by (left, task.size, task.roundsLeft renderer.limits)
decreasing_by
  · exact Prod.Lex.right _ (Prod.Lex.left _ _ smaller)
  · exact Prod.Lex.right _ (Prod.Lex.left _ _ smaller)
  · exact Prod.Lex.left _ _ (by omega)
  · refine Prod.Lex.right _ (Prod.Lex.left _ _ ?_)
    rw [Task.size, Task.size, List.cons.sizeOf_spec]
    omega
  · refine Prod.Lex.right _ (Prod.Lex.left _ _ ?_)
    rw [Task.size, Task.size, List.cons.sizeOf_spec]
    omega
  · exact Prod.Lex.right _ (Prod.Lex.right _ (Nat.succ_pos _))
  · refine Prod.Lex.right _ (Prod.Lex.right _ ?_)
    rw [Task.roundsLeft, Task.roundsLeft]
    omega

end Runs

end Stencil.Renderer
