import Stencil.Proofs.Cache.Coherence
import Stencil.Proofs.Render.Bounds

set_option autoImplicit false

namespace Stencil.Renderer

open Stencil.Action Session

variable {σ : Type} [Store σ] (renderer : Renderer) (data : Fields)

def linked (name : String) (run : Run σ) : Run σ :=
  { run with session := { run.session with chain := run.session.chain ++ [name] } }

def opened (session : Session) : Session := { session with contentClaimed := false }.openFrame contentBlock true

theorem level_opened (limit : Nat) {session : Session} (top : session.includeDepth = 0) :
    (opened session).includeDepth + limit = limit := by
  rw [opened, openFrame]
  dsimp only
  omega

def parentless (run : Run σ) : Run σ := { run with session := { run.session with parent := none } }

def close (name : String) (floor : Nat) :
    EStateM.Result ViewError (Run σ) Fields → EStateM.Result ViewError (Run σ) Unit
  | .error error after => .error error after
  | .ok _ after =>
      match checkClosed name floor after.session with
      | .error error => .error error after
      | .ok _ =>
          match closeContent after.session with
          | .error error => .error error after
          | .ok session => .ok () { after with session }

def RunsTemplate (name : String) (run : Run σ) (work : Work) (answer : EStateM.Result ViewError (Run σ) Unit) : Prop :=
  ∃ program cache result, Cache.ensureFresh renderer.compiler name run.cache = .ok program cache ∧
    renderer.Executes name (run.session.height + 1) (.nodes program.nodes) data
        ⟨cache, opened run.session⟩ work result ∧
    answer = close name (run.session.height + 1) result

inductive Renders : String → Run σ → List Work → EStateM.Result ViewError (Run σ) Unit → Prop where
  | cycle {name : String} {run : Run σ} (looped : run.session.chain.contains name = true) :
      Renders name run [] (.error (.cycle (run.session.chain ++ [name])) run)
  | deep {name : String} {run : Run σ} (fresh : ¬ run.session.chain.contains name = true)
      (full : renderer.limits.inheritanceDepth < run.session.chain.length) :
      Renders name run [] (.error (.tooDeep .inheritance renderer.limits.inheritanceDepth name) run)
  | missing {name : String} {run : Run σ} {e : ViewError} {cache : Cache σ}
      (fresh : ¬ run.session.chain.contains name = true)
      (room : run.session.chain.length ≤ renderer.limits.inheritanceDepth)
      (absent : Cache.ensureFresh renderer.compiler name run.cache = .error e cache) :
      Renders name run [] (.error e { linked name run with cache })
  | failed {name : String} {run after : Run σ} {work : Work} {e : ViewError}
      (fresh : ¬ run.session.chain.contains name = true)
      (room : run.session.chain.length ≤ renderer.limits.inheritanceDepth)
      (ran : renderer.RunsTemplate data name (linked name run) work (.error e after)) :
      Renders name run [work] (.error e after)
  | last {name : String} {run after : Run σ} {work : Work} (fresh : ¬ run.session.chain.contains name = true)
      (room : run.session.chain.length ≤ renderer.limits.inheritanceDepth)
      (ran : renderer.RunsTemplate data name (linked name run) work (.ok () after))
      (alone : after.session.parent = none) : Renders name run [work] (.ok () (parentless after))
  | more {name layout : String} {run after : Run σ} {work : Work} {works : List Work}
      {result : EStateM.Result ViewError (Run σ) Unit} (fresh : ¬ run.session.chain.contains name = true)
      (room : run.session.chain.length ≤ renderer.limits.inheritanceDepth)
      (ran : renderer.RunsTemplate data name (linked name run) work (.ok () after))
      (named : after.session.parent = some layout) (others : Renders layout (parentless after) works result) :
      Renders name run (work :: works) result

section Templates

variable {renderer} {data} {name : String} (run : Run σ)

theorem runTemplate_missing (e : ViewError) (cache : Cache σ)
    (absent : Cache.ensureFresh renderer.compiler name run.cache = .error e cache) :
    renderer.runTemplate name data run = .error e { run with cache } := by
  simp only [runTemplate, bind, EStateM.bind, Run.inCache, absent]

theorem runTemplate_found (program : Program) (cache : Cache σ)
    (found : Cache.ensureFresh renderer.compiler name run.cache = .ok program cache) :
    renderer.runTemplate name data run
      = close name (run.session.height + 1)
          ((renderer.scope renderer.limits.includeDepth name (run.session.height + 1)).runNodes program.nodes data
            ⟨cache, opened run.session⟩) := by
  have got : (get : Action (Run σ) (Run σ)) ⟨cache, run.session⟩ =
      .ok ⟨cache, run.session⟩ ⟨cache, run.session⟩ := rfl
  simp only [runTemplate, bind, EStateM.bind, Run.inCache, found, got, Run.inSession]
  change _ = close name (run.session.height + 1) (Scope.runNodes ⟨name, run.session.height + 1, renderer.limits,
    renderer.insert renderer.limits.includeDepth⟩ program.nodes data
    ⟨cache, { run.session with contentClaimed := false }.openFrame contentBlock true⟩)
  cases Scope.runNodes ⟨name, run.session.height + 1, renderer.limits, renderer.insert renderer.limits.includeDepth⟩
      program.nodes data ⟨cache, { run.session with contentClaimed := false }.openFrame contentBlock true⟩ with
  | error e after => rfl
  | ok changed after =>
      simp only [close, Run.read]
      cases checkClosed name (run.session.height + 1) after.session with
      | error e => rfl
      | ok _ =>
          simp only [Run.lift]
          cases closeContent after.session with
          | error e => rfl
          | ok session => rfl

omit [Store σ] in
theorem close_counts (floor : Nat) (result : EStateM.Result ViewError (Run σ) Fields) (after : Run σ)
    (closed : close name floor result = .ok () after) :
    ∃ changed reached, result = .ok changed reached ∧ after.session.chain = reached.session.chain ∧
      after.session.includeDepth = reached.session.includeDepth := by
  cases result with
  | error e reached => cases closed
  | ok changed reached =>
      refine ⟨changed, reached, rfl, ?_⟩
      rw [close] at closed
      split at closed
      · cases closed
      · split at closed
        · cases closed
        · rename_i session ended
          injection closed with _ same
          subst same
          rw [closeContent] at ended
          split at ended
          · cases ended
          · obtain rfl := Except.ok.inj ended
            by_cases claimed : reached.session.contentClaimed = true
            · rw [if_pos claimed]
              exact ⟨rfl, rfl⟩
            · rw [if_neg claimed]
              exact ⟨rfl, rfl⟩

section Ran

variable {work : Work} {answer : EStateM.Result ViewError (Run σ) Unit}
  (ran : renderer.RunsTemplate data name run work answer) (top : run.session.includeDepth = 0)

include ran top

theorem answer_of_runsTemplate :
    answer = renderer.runTemplate name data run ∧ work.Within renderer.limits := by
  obtain ⟨program, cache, result, found, executed, rfl⟩ := ran
  obtain ⟨same, within⟩ := result_of_executes executed (level_opened _ top) (Nat.le_refl _) trivial
  exact ⟨by rw [runTemplate_found run program cache found, same, Task.run], within⟩

theorem counts_of_runsTemplate (after : Run σ) (done : answer = .ok () after) :
    after.session.chain = run.session.chain ∧ after.session.includeDepth = 0 := by
  obtain ⟨program, cache, result, found, executed, closed⟩ := ran
  obtain ⟨changed, reached, rfl, chain, depth⟩ := close_counts _ result after (closed.symm.trans done)
  have same := (result_of_executes executed (level_opened _ top) (Nat.le_refl _) trivial).1
  have spares := spares_nodes program.nodes data changed ⟨cache, opened run.session⟩ reached (Nat.le_refl _) same.symm
  exact ⟨chain.trans spares.chain, (depth.trans spares.depth).trans top⟩

end Ran

theorem exists_runsTemplate (top : run.session.includeDepth = 0) (program : Program) (cache : Cache σ)
    (found : Cache.ensureFresh renderer.compiler name run.cache = .ok program cache) :
    ∃ work, renderer.RunsTemplate data name run work (renderer.runTemplate name data run) := by
  obtain ⟨work, executed⟩ := exists_work renderer.limits.includeDepth name (run.session.height + 1)
    (.nodes program.nodes) data ⟨cache, opened run.session⟩ (level_opened _ top) (Nat.le_refl _)
  exact ⟨work, program, cache, _, found, executed, runTemplate_found run program cache found⟩

theorem runLink_eq (follow : String → Action (Run σ) Unit) :
    renderer.runLink data follow name run
      = match renderer.runTemplate name data (linked name run) with
        | .error e after => .error e after
        | .ok _ after =>
            match after.session.parent with
            | none => .ok () (parentless after)
            | some layout => follow layout (parentless after) := by
  simp only [runLink, bind, EStateM.bind, Run.inSession, linked]
  cases renderer.runTemplate name data
      { run with session := { run.session with chain := run.session.chain ++ [name] } } with
  | error e after => rfl
  | ok _ after =>
      have got : (get : Action (Run σ) (Run σ)) after = .ok after after := rfl
      simp only [got]
      cases after.session.parent with
      | none => rfl
      | some layout => rfl

end Templates

section Chains

variable {renderer} {data} {name : String} {run : Run σ}

omit [Store σ] in
theorem level_parentless (run after : Run σ) {limit left : Nat}
    (chain : after.session.chain = (linked name run).session.chain)
    (level : run.session.chain.length + (left + 1) = limit) :
    (parentless after).session.chain.length + left = limit := by
  rw [parentless, chain, linked, List.length_append, List.length_singleton]
  omega

theorem result_of_renders {works : List Work} {result : EStateM.Result ViewError (Run σ) Unit}
    (renders : renderer.Renders data name run works result) (left : Nat)
    (level : run.session.chain.length + left = renderer.limits.inheritanceDepth + 1)
    (top : run.session.includeDepth = 0) :
    result = renderer.runChain data left name run ∧ works.length ≤ left ∧
      ∀ work ∈ works, work.Within renderer.limits := by
  induction renders generalizing left with
  | cycle looped =>
      refine ⟨?_, Nat.zero_le _, fun _ none => absurd none List.not_mem_nil⟩
      cases left with
      | zero => rw [runChain_zero, if_pos looped]
      | succ left => rw [runChain_succ, if_pos looped]
  | deep fresh full =>
      obtain rfl : left = 0 := by omega
      exact ⟨by rw [runChain_zero, if_neg fresh], Nat.zero_le _, fun _ none => absurd none List.not_mem_nil⟩
  | missing fresh room absent =>
      obtain ⟨less, rfl⟩ : ∃ less, left = less + 1 := ⟨left - 1, by omega⟩
      refine ⟨?_, Nat.zero_le _, fun _ none => absurd none List.not_mem_nil⟩
      rw [runChain_succ, if_neg fresh, runLink_eq, runTemplate_missing (linked _ _) _ _ absent]
  | failed fresh room ran =>
      obtain ⟨less, rfl⟩ : ∃ less, left = less + 1 := ⟨left - 1, by omega⟩
      obtain ⟨same, within⟩ := answer_of_runsTemplate _ ran top
      refine ⟨?_, Nat.le_add_left _ _, fun work inside => List.mem_singleton.mp inside ▸ within⟩
      rw [runChain_succ, if_neg fresh, runLink_eq, ← same]
  | last fresh room ran alone =>
      obtain ⟨less, rfl⟩ : ∃ less, left = less + 1 := ⟨left - 1, by omega⟩
      obtain ⟨same, within⟩ := answer_of_runsTemplate _ ran top
      refine ⟨?_, Nat.le_add_left _ _, fun work inside => List.mem_singleton.mp inside ▸ within⟩
      rw [runChain_succ, if_neg fresh, runLink_eq, ← same]
      simp only [alone]
  | more fresh room ran named others ih =>
      obtain ⟨less, rfl⟩ : ∃ less, left = less + 1 := ⟨left - 1, by omega⟩
      obtain ⟨same, within⟩ := answer_of_runsTemplate _ ran top
      obtain ⟨chain, depth⟩ := counts_of_runsTemplate _ ran top _ rfl
      obtain ⟨rest, count, bounds⟩ := ih less (level_parentless _ _ chain level) depth
      refine ⟨?_, Nat.succ_le_succ count, List.forall_mem_cons.mpr ⟨within, bounds⟩⟩
      rw [runChain_succ, if_neg fresh, runLink_eq, ← same]
      simp only [named]
      exact rest

theorem exists_works (data : Fields) (left : Nat) (name : String) (run : Run σ)
    (level : run.session.chain.length + left = renderer.limits.inheritanceDepth + 1)
    (top : run.session.includeDepth = 0) :
    ∃ works, renderer.Renders data name run works (renderer.runChain data left name run) := by
  induction left generalizing name run with
  | zero =>
      rw [runChain_zero]
      by_cases looped : run.session.chain.contains name = true
      · rw [if_pos looped]
        exact ⟨_, .cycle looped⟩
      · rw [if_neg looped]
        exact ⟨_, .deep looped (by omega)⟩
  | succ left ih =>
      rw [runChain_succ]
      by_cases looped : run.session.chain.contains name = true
      · rw [if_pos looped]
        exact ⟨_, .cycle looped⟩
      · rw [if_neg looped, runLink_eq]
        have room : run.session.chain.length ≤ renderer.limits.inheritanceDepth := by omega
        cases found : Cache.ensureFresh renderer.compiler name run.cache with
        | error e cache =>
            rw [runTemplate_missing (linked name run) e cache found]
            exact ⟨_, .missing looped room found⟩
        | ok program cache =>
            obtain ⟨work, ran⟩ := exists_runsTemplate (linked name run) top program cache found
            cases ended : renderer.runTemplate name data (linked name run) with
            | error e after =>
                rw [ended] at ran
                exact ⟨_, .failed looped room ran⟩
            | ok _ after =>
                rw [ended] at ran
                dsimp only
                cases parent : after.session.parent with
                | none => exact ⟨_, .last looped room ran parent⟩
                | some layout =>
                    obtain ⟨chain, depth⟩ := counts_of_runsTemplate _ ran top after rfl
                    obtain ⟨works, others⟩ := ih layout (parentless after) (level_parentless _ _ chain level) depth
                    exact ⟨_, .more looped room ran parent others⟩

end Chains

def printed : EStateM.Result ViewError (Run σ) Unit → EStateM.Result ViewError (Cache σ) String
  | .ok _ run => .ok ((run.session.blocks.get? contentBlock).getD "") run.cache
  | .error error run => .error error run.cache

def Rendered (name : String) (cache : Cache σ) (works : List Work) (result : EStateM.Result ViewError (Cache σ) String) :
    Prop :=
  ∃ outcome, renderer.Renders data name ⟨cache, .start⟩ works outcome ∧ result = printed outcome

theorem render_eq (name : String) (cache : Cache σ) :
    renderer.render name data cache
      = printed (renderer.runChain data (renderer.limits.inheritanceDepth + 1) name ⟨cache, .start⟩) := by
  rw [render]
  cases renderer.runChain data (renderer.limits.inheritanceDepth + 1) name ⟨cache, .start⟩ with
  | ok _ run => rfl
  | error e run => rfl

/-- Every render comes to an end, with the result of the executor and no other. It executes no more templates one
after the other than the chain may have, includes none deeper than they may be, and no loop makes more rounds than it
may, whatever the templates are. -/
theorem render_ends (name : String) (cache : Cache σ) :
    (∃ works, renderer.Rendered data name cache works (renderer.render name data cache)) ∧
    ∀ works result, renderer.Rendered data name cache works result →
      result = renderer.render name data cache ∧ works.length ≤ renderer.limits.inheritanceDepth + 1 ∧
      ∀ work ∈ works, work.depth ≤ renderer.limits.includeDepth ∧
        work.rounds ≤ renderer.limits.loopIterations := by
  have level : (Run.mk cache .start).session.chain.length + (renderer.limits.inheritanceDepth + 1)
      = renderer.limits.inheritanceDepth + 1 := Nat.zero_add _
  refine ⟨?_, ?_⟩
  · obtain ⟨works, renders⟩ := exists_works data _ name ⟨cache, .start⟩ level rfl
    exact ⟨works, _, renders, render_eq renderer data name cache⟩
  · rintro works result ⟨outcome, renders, rfl⟩
    obtain ⟨same, count, bounds⟩ := result_of_renders renders _ level rfl
    refine ⟨by rw [same, render_eq], count, fun work inside => ?_⟩
    exact ⟨(bounds work inside).depth, (bounds work inside).rounds⟩

def endless : Cache Memory :=
  ⟨Memory.empty.addSource "page" ⟨"@while(true)@include('page')@endwhile", 1⟩, ⟨0, 0⟩⟩

def bounded : Renderer := ⟨⟨.escaping, id, 1⟩, ⟨false, 2, 1, 3⟩⟩

theorem render_ends_endless :
    ((bounded.render "page" []).failure? endless).map ViewError.message
      = some "include depth limit of 2 exceeded at 'page'" ∧
    ∃ works, bounded.Rendered [] "page" endless works (bounded.render "page" [] endless) ∧ works.length ≤ 2 ∧
      ∀ work ∈ works, work.depth ≤ 2 ∧ work.rounds ≤ 3 := by
  obtain ⟨⟨works, rendered⟩, bounds⟩ := render_ends bounded [] "page" endless
  exact ⟨by decide +kernel, works, rendered, (bounds works _ rendered).2⟩

end Stencil.Renderer
