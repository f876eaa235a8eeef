import Stencil.Proofs.Program.Names
import Stencil.Proofs.Render.Chain
import Stencil.Proofs.Render.Rounds

set_option autoImplicit false

namespace Stencil

structure Run.Matches {σ τ : Type} (C : Cache σ → Cache τ → Prop) (first : Run σ) (second : Run τ) : Prop where
  session : first.session = second.session
  cache : C first.cache second.cache

structure Limits.Within (limits looser : Limits) : Prop where
  strictBlocks : looser.strictBlocks = true → limits.strictBlocks = true
  includeDepth : limits.includeDepth ≤ looser.includeDepth
  inheritanceDepth : limits.inheritanceDepth ≤ looser.inheritanceDepth
  loopIterations : limits.loopIterations ≤ looser.loopIterations

def ViewError.ofLimits : ViewError → Bool
  | .loopLimit _ _ | .blockOpen _ | .tooDeep _ _ _ => true
  | _ => false

def Loop.Form.names : Loop.Form → List String
  | .whilst test => test.names
  | .each _ _ => []
  | .counted header => header.condition.toList.flatMap Expr.names ++ header.step.flatMap Assignment.names

-- What two renders may differ in. After an error of the first one that excuses, the second is free to go on.
-- All variables that occur in their programs are known.
structure Comparison (σ τ : Type) where
  cache : Cache σ → Cache τ → Prop
  vars : Fields → Fields → Prop
  error : ViewError → ViewError → Prop
  excuses : ViewError → Prop
  known : String → Prop

namespace Comparison

section Outcomes

variable {σ τ : Type} (c : Comparison σ τ) {S T α β γ δ : Type}

inductive Answers (V : α → β → Prop) : Except ViewError α → Except ViewError β → Prop where
  | ok {a : α} {b : β} (same : V a b) : Answers V (.ok a) (.ok b)
  | error {e e' : ViewError} (same : c.error e e') : Answers V (.error e) (.error e')
  | excused {e : ViewError} {answer : Except ViewError β} (excuse : c.excuses e) : Answers V (.error e) answer

inductive Meets (R : S → T → Prop) (V : α → β → Prop) :
    EStateM.Result ViewError S α → EStateM.Result ViewError T β → Prop where
  | ok {a : α} {b : β} {s : S} {t : T} (same : V a b) (related : R s t) : Meets R V (.ok a s) (.ok b t)
  | error {e e' : ViewError} {s : S} {t : T} (same : c.error e e') (related : R s t) :
      Meets R V (.error e s) (.error e' t)
  | excused {e : ViewError} {s : S} {result : EStateM.Result ViewError T β} (excuse : c.excuses e) :
      Meets R V (.error e s) result

def Follows (R : S → T → Prop) (V : α → β → Prop) (first : Action S α) (second : Action T β) : Prop :=
  ∀ s t, R s t → c.Meets R V (first s) (second t)

def runs : Run σ → Run τ → Prop := Run.Matches c.cache

def Bodies (body : Body σ) (body' : Body τ) : Prop :=
  ∀ vars vars', c.vars vars vars' → c.Follows c.runs c.vars (body vars) (body' vars')

def programs (program program' : Program) : Prop := program = program' ∧ ∀ name ∈ program.names, c.known name

variable {c} {V : α → β → Prop} {W : γ → δ → Prop} {R : S → T → Prop}

theorem answers_map {first : Except ViewError α} {second : Except ViewError β} (change : α → γ) (change' : β → δ)
    (answers : c.Answers V first second) (changes : ∀ a b, V a b → W (change a) (change' b)) :
    c.Answers W (first.map change) (second.map change') := by
  cases answers with
  | ok same => exact .ok (changes _ _ same)
  | error same => exact .error same
  | excused excuse => exact .excused excuse

theorem follows_pure {a : α} {b : β} (same : V a b) : c.Follows R V (pure a) (pure b) :=
  fun _ _ related => .ok same related

theorem follows_throw {e e' : ViewError} (same : c.error e e') : c.Follows R V (throw e) (throw e') :=
  fun _ _ related => .error same related

theorem follows_bind (first : Action S α) (second : Action T β) (next : α → Action S γ) (next' : β → Action T δ)
    (start : c.Follows R V first second) (more : ∀ a b, V a b → c.Follows R W (next a) (next' b)) :
    c.Follows R W (first >>= next) (second >>= next') := by
  intro s t related
  have meets := start s t related
  simp only [bind, EStateM.bind]
  generalize first s = left at meets
  generalize second t = right at meets
  cases meets with
  | ok same after => exact more _ _ same _ _ after
  | error same after => exact .error same after
  | excused excuse => exact .excused excuse

theorem follows_get (next : S → Action S γ) (next' : T → Action T δ)
    (more : ∀ s t, R s t → c.Meets R W (next s s) (next' t t)) : c.Follows R W (get >>= next) (get >>= next') := more

theorem follows_lift {first : Except ViewError α} {second : Except ViewError β} (answers : c.Answers V first second) :
    c.Follows c.runs V (Run.lift first) (Run.lift second) := by
  intro s t related
  cases answers with
  | ok same => exact .ok same related
  | error same => exact .error same related
  | excused excuse => exact .excused excuse

theorem follows_inSession (change : Session → Session) :
    c.Follows c.runs Eq (Run.inSession change) (Run.inSession change) :=
  fun _ _ related => .ok rfl ⟨congrArg change related.session, related.cache⟩

theorem follows_read (question : Session → Except ViewError α) (question' : Session → Except ViewError β)
    (answers : ∀ session, c.Answers V (question session) (question' session)) :
    c.Follows c.runs V (Run.read question) (Run.read question') := by
  intro s t related
  simp only [Run.read, related.session]
  exact follows_lift (answers t.session) s t related

theorem follows_inCache (first : Action (Cache σ) α) (second : Action (Cache τ) β)
    (follows : c.Follows c.cache V first second) : c.Follows c.runs V (Run.inCache first) (Run.inCache second) := by
  intro s t related
  have meets := follows s.cache t.cache related.cache
  simp only [Run.inCache]
  generalize first s.cache = left at meets
  generalize second t.cache = right at meets
  cases meets with
  | ok same after => exact .ok same ⟨related.session, after⟩
  | error same after => exact .error same ⟨related.session, after⟩
  | excused excuse => exact .excused excuse

end Outcomes

-- What makes two renders comparable: an expression has the same value for both, a variable that both bind keeps
-- them alike, and where their limits differ the second is stopped no earlier.
structure Fair {σ τ : Type} (c : Comparison σ τ) (limits limits' : Limits) : Prop where
  error_self : ∀ e, c.error e e
  evaluate : ∀ (site : Site) vars vars' e, c.vars vars vars' → (∀ name ∈ e.names, c.known name) →
    c.Answers Eq (site.evaluate vars e) (site.evaluate vars' e)
  insert : ∀ name value vars vars', c.vars vars vars' → c.vars (vars.insert name value) (vars'.insert name value)
  limits : limits = limits' ∨ limits.Within limits' ∧ ∀ e, e.ofLimits = true → c.excuses e

section Questions

variable {σ τ : Type} {c : Comparison σ τ} {limits limits' : Limits} (fair : c.Fair limits limits')
  (site : Site) {vars vars' : Fields} (same : c.vars vars vars')

theorem answers_self {α : Type} (answer : Except ViewError α) (self : ∀ e, c.error e e) :
    c.Answers Eq answer answer := by
  cases answer with
  | ok a => exact .ok rfl
  | error e => exact .error (self e)

include fair same

theorem answers_test (e : Expr) (inside : ∀ name ∈ e.names, c.known name) :
    c.Answers Eq (site.test vars e) (site.test vars' e) :=
  answers_map _ _ (fair.evaluate site vars vars' e same inside) fun _ _ => congrArg _

theorem answers_text (e : Expr) (inside : ∀ name ∈ e.names, c.known name) :
    c.Answers Eq (site.text vars e) (site.text vars' e) :=
  answers_map _ _ (fair.evaluate site vars vars' e same inside) fun _ _ => congrArg _

theorem answers_name (e : Expr) (inside : ∀ name ∈ e.names, c.known name) :
    c.Answers Eq (site.name vars e) (site.name vars' e) := by
  have values := fair.evaluate site vars vars' e same inside
  simp only [Site.name]
  generalize site.evaluate vars e = first at values
  generalize site.evaluate vars' e = second at values
  cases values with
  | ok equal =>
      subst equal
      exact answers_self _ fair.error_self
  | error similar => exact .error similar
  | excused excuse => exact .excused excuse

theorem answers_items (e : Expr) (inside : ∀ name ∈ e.names, c.known name) :
    c.Answers Eq (site.items vars e) (site.items vars' e) := by
  have values := fair.evaluate site vars vars' e same inside
  simp only [Site.items]
  generalize site.evaluate vars e = first at values
  generalize site.evaluate vars' e = second at values
  cases values with
  | ok equal =>
      subst equal
      exact answers_self _ fair.error_self
  | error similar => exact .error similar
  | excused excuse => exact .excused excuse

omit same in
theorem answers_apply (statement : Assignment) (inside : ∀ name ∈ statement.names, c.known name)
    (vars vars' : Fields) (same : c.vars vars vars') :
    c.Answers c.vars (statement.apply site vars) (statement.apply site vars') := by
  have known : ∀ name ∈ statement.target.2.names, c.known name := by
    intro name occurs
    refine inside name ?_
    cases statement with
    | set _ _ => exact List.mem_cons_of_mem _ occurs
    | add _ _ | sub _ _ => exact occurs
    | increment _ | decrement _ => exact occurs
  refine answers_map _ _ (fair.evaluate site vars vars' _ same known) fun value _ equal => ?_
  subst equal
  exact fair.insert _ value vars vars' same

omit same in
theorem answers_applyAll (statements : List Assignment)
    (inside : ∀ name ∈ statements.flatMap Assignment.names, c.known name) (vars vars' : Fields)
    (same : c.vars vars vars') :
    c.Answers c.vars (Assignment.applyAll site vars statements) (Assignment.applyAll site vars' statements) := by
  induction statements generalizing vars vars' with
  | nil => exact .ok same
  | cons statement rest ih =>
      rw [List.flatMap_cons] at inside
      obtain ⟨first, others⟩ := List.forall_mem_append.mp inside
      have applied := answers_apply fair site statement first vars vars' same
      rw [Assignment.applyAll, Assignment.applyAll]
      generalize statement.apply site vars = left at applied
      generalize statement.apply site vars' = right at applied
      cases applied with
      | ok changed => exact ih others _ _ changed
      | error similar => exact .error similar
      | excused excuse => exact .excused excuse

theorem answers_continues (condition : Option Expr)
    (inside : ∀ name ∈ condition.toList.flatMap Expr.names, c.known name) :
    c.Answers Eq (Loop.continues site condition vars) (Loop.continues site condition vars') := by
  cases condition with
  | none => exact .ok rfl
  | some e =>
      rw [Option.toList_some, List.flatMap_singleton] at inside
      exact answers_test fair site same e inside

end Questions

section Loops

variable {σ τ : Type} {c : Comparison σ τ} {limits limits' : Limits} (fair : c.Fair limits limits')

inductive Next (c : Comparison σ τ) : Option (Fields × Loop.Form) → Option (Fields × Loop.Form) → Prop where
  | done : Next c none none
  | more {vars vars' : Fields} {rest : Loop.Form} (same : c.vars vars vars')
      (inside : ∀ name ∈ rest.names, c.known name) : Next c (some (vars, rest)) (some (vars', rest))

theorem next_goesOn {vars vars' : Fields} (same : c.vars vars vars') (form : Loop.Form)
    (inside : ∀ name ∈ form.names, c.known name) (goes goes' : Bool) (equal : goes = goes') :
    Next c (form.goesOn vars goes) (form.goesOn vars' goes') := by
  subst equal
  cases goes with
  | false => exact .done
  | true => exact .more same inside

def Room (c : Comparison σ τ) (limit limit' left left' : Nat) : Prop :=
  limit = limit' ∧ left = left' ∨ left ≤ left' ∧ ∀ e : ViewError, e.ofLimits = true → c.excuses e

theorem room_succ {limit limit' left left' : Nat} (room : c.Room limit limit' (left + 1) left') :
    ∃ less, left' = less + 1 ∧ c.Room limit limit' left less := by
  rcases room with ⟨equal, rfl⟩ | ⟨below, excuse⟩
  · exact ⟨left, rfl, .inl ⟨equal, rfl⟩⟩
  · exact ⟨left' - 1, by omega, .inr ⟨by omega, excuse⟩⟩

include fair

theorem bind_same (header : EachHeader) {vars vars' : Fields} (same : c.vars vars vars') (key value : Value) :
    c.vars (header.bind vars key value) (header.bind vars' key value) := by
  rw [EachHeader.bind, EachHeader.bind]
  cases header.key with
  | none => exact fair.insert _ value vars vars' same
  | some name => exact fair.insert _ value _ _ (fair.insert name key vars vars' same)

theorem room_loop : c.Room limits.loopIterations limits'.loopIterations limits.loopIterations limits'.loopIterations := by
  rcases fair.limits with rfl | ⟨within, excuse⟩
  · exact .inl ⟨rfl, rfl⟩
  · exact .inr ⟨within.loopIterations, excuse⟩

theorem room_insert : c.Room limits.includeDepth limits'.includeDepth limits.includeDepth limits'.includeDepth := by
  rcases fair.limits with rfl | ⟨within, excuse⟩
  · exact .inl ⟨rfl, rfl⟩
  · exact .inr ⟨within.includeDepth, excuse⟩

theorem room_chain :
    c.Room limits.inheritanceDepth limits'.inheritanceDepth (limits.inheritanceDepth + 1)
      (limits'.inheritanceDepth + 1) := by
  rcases fair.limits with rfl | ⟨within, excuse⟩
  · exact .inl ⟨rfl, rfl⟩
  · exact .inr ⟨Nat.succ_le_succ within.inheritanceDepth, excuse⟩

variable (site : Site) {vars vars' : Fields} (same : c.vars vars vars') (form : Loop.Form)
  (inside : ∀ name ∈ form.names, c.known name)

include same inside

theorem answers_next : c.Answers (Next c) (form.next site vars) (form.next site vars') := by
  cases form with
  | whilst test =>
      exact answers_map _ _ (answers_test fair site same test inside) (next_goesOn same _ inside)
  | each header items =>
      cases items with
      | nil => exact .ok .done
      | cons item rest =>
          exact .ok (.more (bind_same fair header same item.1 item.2) fun _ none => absurd none List.not_mem_nil)
  | counted header =>
      obtain ⟨condition, _⟩ := List.forall_mem_append.mp inside
      exact answers_map _ _ (answers_continues fair site same header.condition condition) (next_goesOn same _ inside)

theorem answers_after : c.Answers c.vars (form.after site vars) (form.after site vars') := by
  cases form with
  | whilst _ | each _ _ => exact .ok same
  | counted header =>
      obtain ⟨_, step⟩ := List.forall_mem_append.mp inside
      exact answers_applyAll fair site header.step step vars vars' same

omit same inside

variable (body : Body σ) (body' : Body τ) (bodies : c.Bodies body body')

include bodies

theorem follows_turns (limit limit' left left' : Nat) (room : c.Room limit limit' left left') (form : Loop.Form)
    (inside : ∀ name ∈ form.names, c.known name) :
    c.Bodies (Loop.turns site limit body left form) (Loop.turns site limit' body' left' form) := by
  induction left generalizing left' form with
  | zero =>
      intro vars vars' same s t related
      have asked := answers_next fair site same form inside
      rw [Loop.turns, Loop.turns]
      generalize form.next site vars = first at asked
      generalize form.next site vars' = second at asked
      cases asked with
      | error similar => exact .error similar related
      | excused excuse => exact .excused excuse
      | ok next =>
          cases next with
          | done => exact .ok same related
          | more bound _ =>
              rcases room with ⟨rfl, rfl⟩ | ⟨_, excuse⟩
              · exact .error (fair.error_self _) related
              · exact .excused (excuse _ rfl)
  | succ left ih =>
      intro vars vars' same s t related
      obtain ⟨less, rfl, smaller⟩ := room_succ room
      have asked := answers_next fair site same form inside
      rw [Loop.turns, Loop.turns]
      generalize form.next site vars = first at asked
      generalize form.next site vars' = second at asked
      cases asked with
      | error similar => exact .error similar related
      | excused excuse => exact .excused excuse
      | ok next =>
          cases next with
          | done => exact .ok same related
          | @more bound bound' rest bounds known =>
              have ran := bodies bound bound' bounds s t related
              dsimp only
              generalize body bound s = left at ran
              generalize body' bound' t = right at ran
              cases ran with
              | error similar after => exact .error similar after
              | excused excuse => exact .excused excuse
              | ok changed after =>
                  have stepped := answers_after fair site changed form inside
                  dsimp only
                  generalize form.after site _ = first at stepped
                  generalize form.after site _ = second at stepped
                  cases stepped with
                  | ok ready => exact ih less smaller rest known _ _ ready _ _ after
                  | error similar => exact .error similar after
                  | excused excuse => exact .excused excuse

theorem follows_loop (form : Loop.Form) (inside : ∀ name ∈ form.names, c.known name) :
    c.Bodies (Loop.turns site limits.loopIterations body limits.loopIterations form)
      (Loop.turns site limits'.loopIterations body' limits'.loopIterations form) :=
  follows_turns fair site body body' bodies _ _ _ _ (room_loop fair) form inside

end Loops

end Comparison

end Stencil
