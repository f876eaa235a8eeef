import Stencil.Proofs.Render.Rounds

set_option autoImplicit false

namespace Stencil

def LoopHead.start (site : Site) (vars : Fields) : LoopHead → Except ViewError (Loop.Form × Fields)
  | .each header => (site.items vars header.source).map fun items => (.each header items, vars)
  | .counted header => (Assignment.applyAll site vars header.init).map fun bound => (.counted header, bound)
  | .whilst test => .ok (.whilst test, vars)

namespace Loop

structure Stage (σ : Type) where
  form : Form
  vars : Fields
  run : Run σ

section

variable {σ : Type} (site : Site) (body : Body σ)

inductive Rounds : Nat → Stage σ → Stage σ → Prop where
  | none {stage : Stage σ} : Rounds 0 stage stage
  | round {count : Nat} {form rest : Form} {vars bound changed ready : Fields} {run after : Run σ} {last : Stage σ}
      (goesOn : form.next site vars = .ok (some (bound, rest))) (ran : body bound run = .ok changed after)
      (stepped : form.after site changed = .ok ready) (more : Rounds count ⟨rest, ready, after⟩ last) :
      Rounds (count + 1) ⟨form, vars, run⟩ last

def Stage.Ended (stage : Stage σ) : Prop := stage.form.next site stage.vars = .ok none

end

section

variable {σ : Type} {site : Site} {body : Body σ}

theorem turns_once (limit left : Nat) (form rest : Form) (vars bound changed ready : Fields) (run after : Run σ)
    (goesOn : form.next site vars = .ok (some (bound, rest))) (ran : body bound run = .ok changed after)
    (stepped : form.after site changed = .ok ready) :
    turns site limit body (left + 1) form vars run = turns site limit body left rest ready after := by
  rw [turns]
  simp only [goesOn, ran, stepped]

theorem turns_rounds (limit left count : Nat) (first last : Stage σ) (rounds : Rounds site body count first last) :
    turns site limit body (count + left) first.form first.vars first.run
      = turns site limit body left last.form last.vars last.run := by
  induction rounds with
  | none => rw [Nat.zero_add]
  | @round count form rest vars bound changed ready run after last goesOn ran stepped more ih =>
      rw [Nat.add_right_comm, turns_once limit _ form rest vars bound changed ready run after goesOn ran stepped]
      exact ih

theorem turns_ended (limit left : Nat) (stage : Stage σ) (ended : stage.Ended site) :
    turns site limit body left stage.form stage.vars stage.run = .ok stage.vars stage.run := by
  rw [Stage.Ended] at ended
  rw [turns]
  simp only [ended]

theorem turns_stopped (limit count : Nat) (stage last : Stage σ) (more : Rounds site body (count + 1) stage last) :
    turns site limit body 0 stage.form stage.vars stage.run = .error (.loopLimit site limit) stage.run := by
  cases more with
  | round goesOn _ _ _ =>
      rw [turns]
      simp only [goesOn]

theorem rounds_divide (count more : Nat) (first last : Stage σ) (rounds : Rounds site body (count + more) first last) :
    ∃ middle, Rounds site body count first middle ∧ Rounds site body more middle last := by
  induction count generalizing first with
  | zero =>
      rw [Nat.zero_add] at rounds
      exact ⟨first, .none, rounds⟩
  | succ count ih =>
      rw [Nat.add_right_comm] at rounds
      cases rounds with
      | round goesOn ran stepped others =>
          obtain ⟨middle, front, back⟩ := ih _ others
          exact ⟨middle, .round goesOn ran stepped front, back⟩

theorem rounds_of_turns (limit left : Nat) (first : Stage σ) (vars : Fields) (run : Run σ)
    (done : turns site limit body left first.form first.vars first.run = .ok vars run) :
    ∃ count form, count ≤ left ∧ Rounds site body count first ⟨form, vars, run⟩ ∧
      Stage.Ended site (⟨form, vars, run⟩ : Stage σ) := by
  induction left generalizing first with
  | zero =>
      obtain ⟨form, before, start⟩ := first
      rw [turns] at done
      dsimp only at done
      split at done
      · cases done
      · rename_i ended
        cases done
        exact ⟨0, form, Nat.le_refl _, .none, ended⟩
      · cases done
  | succ left ih =>
      obtain ⟨form, before, start⟩ := first
      rw [turns] at done
      dsimp only at done
      split at done
      · cases done
      · rename_i ended
        cases done
        exact ⟨0, form, Nat.zero_le _, .none, ended⟩
      · rename_i bound rest goesOn
        cases ran : body bound start with
        | error e after => simp only [ran, reduceCtorEq] at done
        | ok changed after =>
            cases stepped : form.after site changed with
            | error e => simp only [ran, stepped, reduceCtorEq] at done
            | ok ready =>
                simp only [ran, stepped] at done
                obtain ⟨count, last, within, rounds, ended⟩ := ih ⟨rest, ready, after⟩ done
                exact ⟨count + 1, last, Nat.succ_le_succ within, .round goesOn ran stepped rounds, ended⟩

end

end Loop

namespace Scope

variable {σ : Type} (scope : Scope σ) (head : LoopHead) (body : List Node) (line : Nat)

theorem runNode_loop (vars : Fields) (run : Run σ) :
    scope.runNode (head.node body line) vars run
      = match head.start (scope.site line) vars with
        | .error error => .error error run
        | .ok (form, bound) =>
            Loop.turns (scope.site line) scope.limits.loopIterations (scope.runNodes body)
              scope.limits.loopIterations form bound run := by
  cases head with
  | each header =>
      rw [LoopHead.node, runNode, LoopHead.start]
      simp only [bind, EStateM.bind, Run.lift]
      cases Site.items (scope.site line) vars header.source with
      | error e => rfl
      | ok items => exact Loop.each_eq _ _ _ header _ items vars run
  | counted header =>
      rw [LoopHead.node, runNode, LoopHead.start]
      simp only [bind, EStateM.bind, Run.lift]
      cases Assignment.applyAll (scope.site line) vars header.init with
      | error e => rfl
      | ok bound => exact Loop.counted_eq _ _ _ header _ bound run
  | whilst test =>
      rw [LoopHead.node, runNode]
      exact Loop.whilst_eq _ _ _ test _ vars run

-- How far a loop comes in so many rounds if nothing limits it. Loops in its body have their caps.
def Reaches (vars : Fields) (run : Run σ) (count : Nat) (stage : Loop.Stage σ) : Prop :=
  ∃ form bound, head.start (scope.site line) vars = .ok (form, bound) ∧
    Loop.Rounds (scope.site line) (scope.runNodes body) count ⟨form, bound, run⟩ stage

/-- A loop of any of the three kinds ends well exactly if it does so without a cap of its own after no more rounds than
the cap, in the same state and with the same variables. If it makes more rounds than that, it stops with the error that
names its line and the cap, in the state that it has reached after exactly as many rounds as the cap. The state and the
variables in which it is met are any, so a loop that is met again, as in each round of another one, has all of its
rounds again. -/
theorem loop_capped (vars : Fields) (run : Run σ) :
    let limit := scope.limits.loopIterations
    let result := scope.runNode (head.node body line) vars run
    (∀ last ended, result = .ok last ended ↔ ∃ count form, count ≤ limit ∧
      scope.Reaches head body line vars run count ⟨form, last, ended⟩ ∧
      Loop.Stage.Ended (scope.site line) (⟨form, last, ended⟩ : Loop.Stage σ)) ∧
    ∀ count stage, limit < count → scope.Reaches head body line vars run count stage →
      ∃ reached, scope.Reaches head body line vars run limit reached ∧
        result = .error (.loopLimit (scope.site line) limit) reached.run := by
  intro limit result
  have looped := scope.runNode_loop head body line vars run
  refine ⟨fun last ended => ⟨fun done => ?_, ?_⟩, ?_⟩
  · rw [show scope.runNode (head.node body line) vars run = .ok last ended from done] at looped
    cases started : head.start (scope.site line) vars with
    | error e => simp only [started, reduceCtorEq] at looped
    | ok begun =>
        obtain ⟨form, bound⟩ := begun
        simp only [started] at looped
        obtain ⟨count, final, within, rounds, isOver⟩ :=
          Loop.rounds_of_turns limit limit ⟨form, bound, run⟩ last ended looped.symm
        exact ⟨count, final, within, ⟨form, bound, started, rounds⟩, isOver⟩
  · rintro ⟨count, final, within, ⟨form, bound, started, rounds⟩, isOver⟩
    obtain ⟨left, room⟩ := Nat.exists_eq_add_of_le within
    have turned := Loop.turns_rounds limit left count _ _ rounds
    simp only [started] at looped
    rw [← room] at turned
    exact looped.trans (turned.trans (Loop.turns_ended limit left ⟨final, last, ended⟩ isOver))
  · rintro count stage beyond ⟨form, bound, started, rounds⟩
    obtain ⟨more, rfl⟩ : ∃ more, count = limit + (more + 1) := ⟨count - limit - 1, by omega⟩
    obtain ⟨reached, front, back⟩ := Loop.rounds_divide limit (more + 1) _ _ rounds
    have turned := Loop.turns_rounds limit 0 limit _ _ front
    simp only [started] at looped
    rw [Nat.add_zero] at turned
    exact ⟨reached, ⟨form, bound, started, front⟩, looped.trans (turned.trans (Loop.turns_stopped limit more _ _ back))⟩

def twoRounds : Scope Unit := ⟨"page", 0, ⟨false, 0, 0, 2⟩, fun _ _ => pure ()⟩

def listed (items : List Value) : LoopHead := .each ⟨.literal (.list items), none, "item"⟩

theorem start_listed (site : Site) (items : List Value) (vars : Fields) :
    (listed items).start site vars
      = .ok (.each ⟨.literal (.list items), none, "item"⟩ (items.zipIdx.map fun (item, i) => (Value.ofNat i, item)),
          vars) := by
  rw [listed, LoopHead.start, Site.items, Site.evaluate, evaluate]
  rfl

-- The loop of two rounds is met twice and runs through both times; a third round of a loop is one too many.
theorem loop_capped_nested :
    let pair := listed [.null, .null]
    let begun : Run Unit := ⟨⟨(), ⟨0, 0⟩⟩, .start⟩
    (∃ last ended, twoRounds.runNode (pair.node [pair.node [.text "a"] 2] 1) [] begun = .ok last ended ∧
      ended.session.output = "aaaa") ∧
    ∃ reached, twoRounds.runNode ((listed [.null, .null, .null]).node [.text "a"] 1) [] begun
        = .error (.loopLimit ⟨"page", 1⟩ 2) reached ∧
      reached.session.output = "aa" := by
  intro pair begun
  let printed (run : Run Unit) : Run Unit := { run with session := run.session.write "a" }
  have prints (vars : Fields) (run : Run Unit) : twoRounds.runNodes [.text "a"] vars run = .ok vars (printed run) := by
    rw [Scope.runNodes, Scope.runNode, Scope.runNodes]
    rfl
  have inner (vars : Fields) (run : Run Unit) : ∃ changed,
      twoRounds.runNodes [pair.node [.text "a"] 2] vars run = .ok changed (printed (printed run)) := by
    have looped := ((twoRounds.loop_capped pair [.text "a"] 2 vars run).1 _ _).2
      ⟨2, _, Nat.le_refl 2, ⟨_, _, start_listed _ _ vars, .round rfl (prints _ run) rfl (.round rfl (prints _ _) rfl .none)⟩,
        rfl⟩
    rw [Scope.runNodes]
    simp only [looped]
    exact ⟨_, by rw [Scope.runNodes]; rfl⟩
  constructor
  · obtain ⟨second, first_ran⟩ := inner (Fields.insert "item" .null []) begun
    obtain ⟨third, second_ran⟩ := inner (second.insert "item" .null) (printed (printed begun))
    have looped := ((twoRounds.loop_capped pair [pair.node [.text "a"] 2] 1 [] begun).1 _ _).2
      ⟨2, _, Nat.le_refl 2, ⟨_, _, start_listed _ _ [], .round rfl first_ran rfl (.round rfl second_ran rfl .none)⟩, rfl⟩
    exact ⟨_, _, looped, rfl⟩
  · obtain ⟨reached, ⟨form, bound, started, rounds⟩, stopped⟩ :=
      (twoRounds.loop_capped (listed [.null, .null, .null]) [.text "a"] 1 [] begun).2 3 _ (Nat.lt_succ_self 2)
        ⟨_, _, start_listed _ _ [],
          .round rfl (prints _ begun) rfl (.round rfl (prints _ _) rfl (.round rfl (prints _ _) rfl .none))⟩
    refine ⟨_, stopped, ?_⟩
    rw [start_listed] at started
    cases started
    cases rounds with
    | round goesOn ran stepped more =>
        cases goesOn
        rw [prints] at ran
        cases ran
        cases stepped
        cases more with
        | round goesOn ran stepped more =>
            cases goesOn
            rw [prints] at ran
            cases ran
            cases more
            rfl

end Scope

end Stencil
