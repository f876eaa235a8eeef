import Stencil.Proofs.Render.Comparison
import Stencil.Proofs.Render.Fetching

set_option autoImplicit false

namespace Stencil

namespace Comparison

section Scopes

variable {σ τ : Type} {c : Comparison σ τ} {limits limits' : Limits} (fair : c.Fair limits limits')

theorem follows_finish (overwrite : Bool) (self : ∀ e, c.error e e) :
    c.Follows c.runs Eq (Run.finish overwrite) (Run.finish overwrite) := by
  intro s t related
  simp only [Run.finish, related.session]
  split
  · exact .ok rfl ⟨rfl, related.cache⟩
  · exact .error (self _) related

include fair

theorem answers_block (name default : String) (session : Session) :
    c.Answers Eq (session.block limits name default) (session.block limits' name default) := by
  rcases fair.limits with rfl | ⟨within, excuse⟩
  · exact answers_self _ fair.error_self
  · rw [Session.block, Session.block]
    by_cases stopped : (limits.strictBlocks && session.isOpen name) = true
    · rw [if_pos stopped]
      exact .excused (excuse _ rfl)
    · have free : ¬ (limits'.strictBlocks && session.isOpen name) = true := by
        rw [Bool.and_eq_true] at stopped ⊢
        exact fun both => stopped ⟨within.strictBlocks both.1, both.2⟩
      rw [if_neg stopped, if_neg free]
      exact .ok rfl

variable (template : String) (floor : Nat) (insert : String → Fields → Action (Run σ) Unit)
  (insert' : String → Fields → Action (Run τ) Unit)

theorem follows_printBlock (name default : String) :
    c.Follows c.runs Eq (Scope.printBlock ⟨template, floor, limits, insert⟩ name default)
      (Scope.printBlock ⟨template, floor, limits', insert'⟩ name default) := by
  refine follows_bind _ _ _ _ (follows_read _ _ (answers_block fair name default)) fun text _ equal => ?_
  subst equal
  exact follows_inSession _

variable (site : Site) {vars vars' : Fields} (same : c.vars vars vars')

include same

theorem follows_name (e : Expr) (inside : ∀ name ∈ e.names, c.known name) :
    c.Follows c.runs Eq (Run.lift (site.name vars e)) (Run.lift (site.name vars' e)) :=
  follows_lift (answers_name fair site same e inside)

theorem follows_text (e : Expr) (inside : ∀ name ∈ e.names, c.known name) :
    c.Follows c.runs Eq (Run.lift (site.text vars e)) (Run.lift (site.text vars' e)) :=
  follows_lift (answers_text fair site same e inside)

theorem follows_yield (block : Expr) (default : Option Expr)
    (inside : ∀ name ∈ block.names ++ default.toList.flatMap Expr.names, c.known name) :
    c.Follows c.runs c.vars (Scope.yield ⟨template, floor, limits, insert⟩ site block default vars)
      (Scope.yield ⟨template, floor, limits', insert'⟩ site block default vars') := by
  obtain ⟨named, others⟩ := List.forall_mem_append.mp inside
  refine follows_bind _ _ _ _ (follows_name fair site same block named) fun name _ equal => ?_
  subst equal
  have last : ∀ fallback fallback', fallback = fallback' → c.Follows c.runs c.vars
      (do Scope.printBlock ⟨template, floor, limits, insert⟩ name fallback; return vars)
      (do Scope.printBlock ⟨template, floor, limits', insert'⟩ name fallback'; return vars') := by
    rintro fallback _ rfl
    exact follows_bind _ _ _ _ (follows_printBlock fair template floor insert insert' name fallback)
      fun _ _ _ => follows_pure same
  cases default with
  | none => exact follows_bind _ _ _ _ (follows_pure rfl) last
  | some e =>
      rw [Option.toList_some, List.flatMap_singleton] at others
      exact follows_bind _ _ _ _ (follows_text fair site same e others) last

theorem follows_openSection (block : Expr) (inline : Option Expr)
    (inside : ∀ name ∈ block.names ++ inline.toList.flatMap Expr.names, c.known name) :
    c.Follows c.runs c.vars (Scope.openSection site block inline vars)
      (Scope.openSection site block inline vars') := by
  obtain ⟨named, others⟩ := List.forall_mem_append.mp inside
  refine follows_bind _ _ _ _ (follows_name fair site same block named) fun name _ equal => ?_
  subst equal
  cases inline with
  | none => exact follows_bind _ _ _ _ (follows_inSession _) fun _ _ _ => follows_pure same
  | some e =>
      rw [Option.toList_some, List.flatMap_singleton] at others
      refine follows_bind _ _ _ _ (follows_text fair site same e others) fun content _ equal => ?_
      subst equal
      refine follows_bind _ _ _ _ (follows_inSession _) fun _ _ _ => ?_
      exact follows_bind _ _ _ _ (follows_finish _ fair.error_self) fun _ _ _ => follows_pure same

theorem follows_closeSection (mode : EndMode) :
    c.Follows c.runs c.vars (Scope.closeSection ⟨template, floor, limits, insert⟩ site mode vars)
      (Scope.closeSection ⟨template, floor, limits', insert'⟩ site mode vars') := by
  have finish : c.Follows c.runs c.vars
      (do
        let name ← Run.finish (mode = .overwrite)
        if mode = .show then Scope.printBlock ⟨template, floor, limits, insert⟩ name ""
        return vars)
      (do
        let name ← Run.finish (mode = .overwrite)
        if mode = .show then Scope.printBlock ⟨template, floor, limits', insert'⟩ name ""
        return vars') := by
    refine follows_bind _ _ _ _ (follows_finish _ fair.error_self) fun name _ equal => ?_
    subst equal
    by_cases shown : mode = .show
    · simp only [shown, if_true]
      exact follows_bind _ _ _ _ (follows_printBlock fair template floor insert insert' name "")
        fun _ _ _ => follows_pure same
    · simp only [shown, if_false]
      exact follows_pure same
  refine follows_get _ _ fun s t related => ?_
  rw [related.session]
  by_cases closed : t.session.height ≤ floor
  · simp only [closed, if_true]
    exact .error (fair.error_self _) related
  · simp only [closed, if_false]
    exact finish s t related

theorem follows_extend (name : Expr) (inside : ∀ other ∈ name.names, c.known other) :
    c.Follows c.runs c.vars (Scope.extend site name vars) (Scope.extend site name vars') := by
  refine follows_bind _ _ _ _ (follows_name fair site same name inside) fun name _ equal => ?_
  subst equal
  exact follows_bind _ _ _ _ (follows_inSession _) fun _ _ _ => follows_pure same

variable (inserts : ∀ name vars vars', c.vars vars vars' → c.Follows c.runs Eq (insert name vars) (insert' name vars'))

include inserts

theorem follows_runInserted (name : Expr) (inside : ∀ other ∈ name.names, c.known other) :
    c.Follows c.runs c.vars (Scope.runInserted ⟨template, floor, limits, insert⟩ site name vars)
      (Scope.runInserted ⟨template, floor, limits', insert'⟩ site name vars') := by
  refine follows_bind _ _ _ _ (follows_name fair site same name inside) fun name _ equal => ?_
  subst equal
  exact follows_bind _ _ _ _ (inserts name vars vars' same) fun _ _ _ => follows_pure same

omit same

-- In a mutual block the linter takes a hypothesis for unused that a theorem only hands on to the others.
set_option linter.unusedSectionVars false in
mutual
theorem follows_runNode (node : Node) (inside : ∀ name ∈ node.names, c.known name) (vars vars' : Fields)
    (same : c.vars vars vars') :
    c.Follows c.runs c.vars (Scope.runNode ⟨template, floor, limits, insert⟩ node vars)
      (Scope.runNode ⟨template, floor, limits', insert'⟩ node vars') := by
  match node with
  | .text content =>
      rw [Scope.runNode, Scope.runNode]
      exact follows_bind _ _ _ _ (follows_inSession _) fun _ _ _ => follows_pure same
  | .comment _ =>
      rw [Scope.runNode, Scope.runNode]
      exact follows_pure same
  | .echo e line =>
      rw [Scope.runNode, Scope.runNode]
      refine follows_bind _ _ _ _ (follows_text fair _ same e inside) fun text _ equal => ?_
      subst equal
      exact follows_bind _ _ _ _ (follows_inSession _) fun _ _ _ => follows_pure same
  | .conditional branches none line =>
      rw [Scope.runNode, Scope.runNode]
      exact follows_runBranches _ branches inside _ _ (fun _ _ same => follows_pure same) vars vars' same
  | .conditional branches (some otherwise) line =>
      obtain ⟨first, second⟩ := List.forall_mem_append.mp inside
      rw [Scope.runNode, Scope.runNode]
      exact follows_runBranches _ branches first _ _ (follows_runNodes otherwise second) vars vars' same
  | .each header body line =>
      obtain ⟨named, below⟩ := List.forall_mem_append.mp inside
      obtain ⟨source, _⟩ := List.forall_mem_append.mp named
      rw [Scope.runNode, Scope.runNode]
      refine follows_bind _ _ _ _ (follows_lift (answers_items fair _ same header.source source))
        fun items _ equal => ?_
      subst equal
      intro s t related
      rw [Loop.each_eq, Loop.each_eq]
      exact follows_loop fair _ _ _ (follows_runNodes body below) (.each header items)
        (fun _ none => absurd none List.not_mem_nil) vars vars' same s t related
  | .counted header body line =>
      obtain ⟨named, below⟩ := List.forall_mem_append.mp inside
      obtain ⟨init, others⟩ := List.forall_mem_append.mp named
      rw [Scope.runNode, Scope.runNode]
      refine follows_bind _ _ _ _ (follows_lift (answers_applyAll fair _ header.init init vars vars' same))
        fun vars vars' same => ?_
      intro s t related
      rw [Loop.counted_eq, Loop.counted_eq]
      exact follows_loop fair _ _ _ (follows_runNodes body below) (.counted header) others vars vars' same s t related
  | .whilst test body line =>
      obtain ⟨tested, below⟩ := List.forall_mem_append.mp inside
      rw [Scope.runNode, Scope.runNode]
      intro s t related
      rw [Loop.whilst_eq, Loop.whilst_eq]
      exact follows_loop fair _ _ _ (follows_runNodes body below) (.whilst test) tested vars vars' same s t related
  | .extend name line =>
      rw [Scope.runNode, Scope.runNode]
      exact follows_extend fair _ same name inside
  | .insert name line =>
      rw [Scope.runNode, Scope.runNode]
      exact follows_runInserted fair template floor insert insert' _ same inserts name inside
  | .yield block default line =>
      rw [Scope.runNode, Scope.runNode]
      exact follows_yield fair template floor insert insert' _ same block default inside
  | .openSection block inline line =>
      rw [Scope.runNode, Scope.runNode]
      exact follows_openSection fair _ same block inline inside
  | .closeSection mode line =>
      rw [Scope.runNode, Scope.runNode]
      exact follows_closeSection fair template floor insert insert' _ same mode

theorem follows_runNodes (nodes : List Node) (inside : ∀ name ∈ Node.allNames nodes, c.known name) :
    c.Bodies (Scope.runNodes ⟨template, floor, limits, insert⟩ nodes)
      (Scope.runNodes ⟨template, floor, limits', insert'⟩ nodes) := by
  intro vars vars' same
  match nodes with
  | [] => exact follows_pure same
  | node :: rest =>
      obtain ⟨first, others⟩ := List.forall_mem_append.mp inside
      intro s t related
      have ran := follows_runNode node first vars vars' same s t related
      rw [Scope.runNodes, Scope.runNodes]
      dsimp only
      generalize Scope.runNode _ node vars s = left at ran
      generalize Scope.runNode _ node vars' t = right at ran
      cases ran with
      | ok changed after => exact follows_runNodes rest others _ _ changed _ _ after
      | error similar after => exact .error similar after
      | excused excuse => exact .excused excuse

theorem follows_runBranches (site : Site) (branches : List (Expr × List Node))
    (inside : ∀ name ∈ Node.branchNames branches, c.known name) (last : Body σ) (last' : Body τ)
    (final : c.Bodies last last') :
    c.Bodies (Scope.runBranches ⟨template, floor, limits, insert⟩ site branches last)
      (Scope.runBranches ⟨template, floor, limits', insert'⟩ site branches last') := by
  intro vars vars' same
  match branches with
  | [] => exact final vars vars' same
  | (test, body) :: rest =>
      obtain ⟨tested, others⟩ := List.forall_mem_append.mp inside
      obtain ⟨below, later⟩ := List.forall_mem_append.mp others
      intro s t related
      have asked := answers_test fair site same test tested
      rw [Scope.runBranches, Scope.runBranches]
      dsimp only
      generalize site.test vars test = left at asked
      generalize site.test vars' test = right at asked
      cases asked with
      | error similar => exact .error similar related
      | excused excuse => exact .excused excuse
      | ok equal =>
          subst equal
          split
          · exact follows_runNodes body below vars vars' same s t related
          · exact follows_runBranches site rest later last last' final vars vars' same s t related
          · contradiction
end

end Scopes

section Renders

open Renderer

variable {σ τ : Type} {c : Comparison σ τ}

theorem follows_inserted {α β : Type} {V : α → β → Prop} (first : Action (Run σ) α) (second : Action (Run τ) β)
    (follows : c.Follows c.runs V first second) : c.Follows c.runs V (inserted first) (inserted second) := by
  intro s t related
  have deeper := follows
    { s with session := s.session.deeper }
    { t with session := t.session.deeper }
    ⟨by rw [related.session], related.cache⟩
  simp only [inserted]
  generalize first _ = left at deeper
  generalize second _ = right at deeper
  cases deeper with
  | ok same after => exact .ok same ⟨by rw [after.session, related.session], after.cache⟩
  | error similar after => exact .error similar ⟨by rw [after.session, related.session], after.cache⟩
  | excused excuse => exact .excused excuse

variable {limits limits' : Limits} (fair : c.Fair limits limits')

section Over

variable (fetch : String → Action (Cache σ) Program) (fetch' : String → Action (Cache τ) Program)
  (fresh : ∀ name, c.Follows c.cache c.programs (fetch name) (fetch' name))

include fair fresh

theorem follows_insert (left left' : Nat) (room : c.Room limits.includeDepth limits'.includeDepth left left')
    (name : String) (vars vars' : Fields) (same : c.vars vars vars') :
    c.Follows c.runs Eq (insertOver limits fetch left name vars) (insertOver limits' fetch' left' name vars') := by
  induction left generalizing left' name vars vars' with
  | zero =>
      rcases room with ⟨equal, rfl⟩ | ⟨_, excuse⟩
      · rw [insertOver, insertOver, equal]
        exact follows_throw (fair.error_self _)
      · exact fun _ _ _ => .excused (excuse _ rfl)
  | succ left ih =>
      obtain ⟨less, rfl, smaller⟩ := room_succ room
      refine follows_bind _ _ _ _ (follows_inCache _ _ (fresh name)) fun program _ found => ?_
      obtain ⟨rfl, inside⟩ := found
      refine follows_get _ _ fun s t related => ?_
      rw [related.session]
      have below := follows_runNodes fair name t.session.height _ _ (ih less smaller) program.nodes inside vars vars' same
      refine follows_bind _ _ _ _ (follows_inserted _ _ below) (fun _ _ _ => ?_) s t related
      exact follows_read _ _ fun session => answers_self _ fair.error_self

theorem follows_runTemplate (name : String) (data data' : Fields) (same : c.vars data data') :
    c.Follows c.runs Eq (runTemplateOver limits fetch name data) (runTemplateOver limits' fetch' name data') := by
  refine follows_bind _ _ _ _ (follows_inCache _ _ (fresh name)) fun program _ found => ?_
  obtain ⟨rfl, inside⟩ := found
  refine follows_get _ _ fun s t related => ?_
  rw [related.session]
  refine follows_bind _ _ _ _ (follows_inSession _) (fun _ _ _ => ?_) s t related
  refine follows_bind _ _ _ _ (follows_runNodes fair name _ _ _
    (follows_insert fair fetch fetch' fresh _ _ (room_insert fair)) program.nodes inside data data' same)
    fun _ _ _ => ?_
  refine follows_bind _ _ _ _ (follows_read _ _ fun _ => answers_self _ fair.error_self) fun _ _ _ => ?_
  refine follows_bind _ _ _ _ (follows_read _ _ fun _ => answers_self _ fair.error_self) fun session _ equal => ?_
  subst equal
  exact follows_inSession _

theorem follows_runLink (data data' : Fields) (same : c.vars data data') (follow : String → Action (Run σ) Unit)
    (follow' : String → Action (Run τ) Unit) (follows : ∀ name, c.Follows c.runs Eq (follow name) (follow' name))
    (name : String) :
    c.Follows c.runs Eq (runLinkOver limits fetch data follow name)
      (runLinkOver limits' fetch' data' follow' name) := by
  refine follows_bind _ _ _ _ (follows_inSession _) fun _ _ _ => ?_
  refine follows_bind _ _ _ _ (follows_runTemplate fair fetch fetch' fresh name data data' same) fun _ _ _ => ?_
  refine follows_get _ _ fun s t related => ?_
  rw [related.session]
  refine follows_bind _ _ _ _ (follows_inSession _) (fun _ _ _ => ?_) s t related
  split
  · exact follows_pure rfl
  · exact follows _

theorem follows_runChain (data data' : Fields) (same : c.vars data data') (left left' : Nat)
    (room : c.Room limits.inheritanceDepth limits'.inheritanceDepth left left') (name : String) :
    c.Follows c.runs Eq (runChainOver limits fetch data left name) (runChainOver limits' fetch' data' left' name) := by
  induction left generalizing left' name with
  | zero =>
      intro s t related
      rw [runChainOver, runChainOver.eq_def, related.session]
      by_cases looped : t.session.chain.contains name = true
      · rw [if_pos looped, if_pos looped]
        exact .error (fair.error_self _) related
      · rw [if_neg looped, if_neg looped]
        rcases room with ⟨equal, rfl⟩ | ⟨_, excuse⟩
        · rw [equal]
          exact .error (fair.error_self _) related
        · exact .excused (excuse _ rfl)
  | succ left ih =>
      intro s t related
      obtain ⟨less, rfl, smaller⟩ := room_succ room
      rw [runChainOver, runChainOver, related.session]
      split
      · exact .error (fair.error_self _) related
      · exact follows_runLink fair fetch fetch' fresh data data' same _ _ (ih less smaller) name s t related

theorem follows_renderOver (name : String) (data data' : Fields) (same : c.vars data data') :
    c.Follows c.cache Eq (renderOver limits fetch name data) (renderOver limits' fetch' name data') := by
  intro s t related
  have ran := follows_runChain fair fetch fetch' fresh data data' same _ _ (room_chain fair) name
    ⟨s, .start⟩ ⟨t, .start⟩ ⟨rfl, related⟩
  simp only [renderOver]
  generalize runChainOver _ _ data _ name ⟨s, .start⟩ = left at ran
  generalize runChainOver _ _ data' _ name ⟨t, .start⟩ = right at ran
  cases ran with
  | ok _ after =>
      dsimp only
      rw [after.session]
      exact .ok rfl after.cache
  | error similar after => exact .error similar after.cache
  | excused excuse => exact .excused excuse

end Over

include fair

theorem follows_render [Store σ] [Store τ] (compiler compiler' : Compiler)
    (fresh : ∀ name, c.Follows c.cache c.programs (Cache.ensureFresh compiler name) (Cache.ensureFresh compiler' name))
    (name : String) (data data' : Fields) (same : c.vars data data') :
    c.Follows c.cache Eq (render ⟨compiler, limits⟩ name data) (render ⟨compiler', limits'⟩ name data') := by
  rw [render_over, render_over]
  exact follows_renderOver fair _ _ fresh name data data' same

end Renders

end Comparison

inductive Agrees {σ τ α : Type} (R : σ → τ → Prop) :
    EStateM.Result ViewError σ α → EStateM.Result ViewError τ α → Prop where
  | ok {a : α} {s : σ} {t : τ} (related : R s t) : Agrees R (.ok a s) (.ok a t)
  | error {e : ViewError} {s : σ} {t : τ} (related : R s t) : Agrees R (.error e s) (.error e t)

namespace Action

variable {σ τ α : Type}

def Alike (R : σ → τ → Prop) (first : Action σ α) (second : Action τ α) : Prop :=
  ∀ s t, R s t → Agrees R (first s) (second t)

end Action

open Stencil.Action

section Alike

variable {σ τ : Type} {C : Cache σ → Cache τ → Prop}

def Comparison.plain (C : Cache σ → Cache τ → Prop) (excuses : ViewError → Prop) : Comparison σ τ :=
  ⟨C, Eq, Eq, excuses, fun _ => True⟩

namespace Comparison

variable {excuses : ViewError → Prop}

theorem fair_plain (limits limits' : Limits)
    (bounds : limits = limits' ∨ limits.Within limits' ∧ ∀ e, e.ofLimits = true → excuses e) :
    (plain C excuses).Fair limits limits' where
  error_self _ := rfl
  evaluate site vars _ e same _ := by
    obtain rfl := same
    exact answers_self _ fun _ => rfl
  insert name value _ _ same := congrArg (Fields.insert name value) same
  limits := bounds

theorem follows_programs (first : Action (Cache σ) Program) (second : Action (Cache τ) Program)
    (alike : Alike C first second) : (plain C excuses).Follows C (plain C excuses).programs first second := by
  intro s t related
  have agrees := alike s t related
  generalize first s = left at agrees
  generalize second t = right at agrees
  cases agrees with
  | ok after => exact .ok ⟨rfl, fun _ _ => trivial⟩ after
  | error after => exact .error rfl after

end Comparison

namespace Renderer

theorem alike_renderOver (fetch : String → Action (Cache σ) Program) (fetch' : String → Action (Cache τ) Program)
    (limits : Limits) (fresh : ∀ name, Alike C (fetch name) (fetch' name)) (name : String) (data : Fields) :
    Alike C (renderOver limits fetch name data) (renderOver limits fetch' name data) := by
  have fair : (Comparison.plain C fun _ => False).Fair limits limits := Comparison.fair_plain limits limits (.inl rfl)
  intro s t related
  have rendered := Comparison.follows_renderOver fair fetch fetch'
    (fun name => Comparison.follows_programs _ _ (fresh name)) name data data rfl s t related
  generalize renderOver limits fetch name data s = left at rendered
  generalize renderOver limits fetch' name data t = right at rendered
  cases rendered with
  | ok same after =>
      obtain rfl := same
      exact .ok after
  | error same after =>
      obtain rfl := same
      exact .error after
  | excused excuse => exact excuse.elim

theorem alike_render [Store σ] [Store τ] (compiler compiler' : Compiler) (limits : Limits)
    (fresh : ∀ name, Alike C (Cache.ensureFresh compiler name) (Cache.ensureFresh compiler' name)) (name : String)
    (data : Fields) : Alike C (render ⟨compiler, limits⟩ name data) (render ⟨compiler', limits⟩ name data) := by
  rw [render_over, render_over]
  exact alike_renderOver _ _ limits fresh name data

end Renderer

end Alike

end Stencil
