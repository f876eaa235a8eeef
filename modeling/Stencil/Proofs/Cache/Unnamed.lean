import Stencil.Proofs.Cache.Guards
import Stencil.Proofs.Cache.Transparency

set_option autoImplicit false

namespace Stencil

def ViewError.withoutSuggestions : ViewError → ViewError
  | .undefinedVariable site name _ => .undefinedVariable site name []
  | e => e

open Stencil.Action

def Action.unsuggested {σ α : Type} (action : Action σ α) : Action σ α := fun s =>
  match action s with
  | .ok a s => .ok a s
  | .error e s => .error e.withoutSuggestions s

section Agreement

variable {named : String → Prop} {vars vars' : Fields} (site : Site)

theorem fault_withoutSuggestions (fault : EvalFault) :
    (site.fault vars fault).withoutSuggestions = (site.fault vars' fault).withoutSuggestions := by
  cases fault <;> rfl

def Comparison.within {σ : Type} (P : Cache σ → Prop) (named : String → Prop) : Comparison σ σ where
  cache first second := first = second ∧ P first
  vars := Fields.AgreeOn named
  error e e' := e.withoutSuggestions = e'.withoutSuggestions
  excuses _ := False
  known := named

namespace Comparison

variable {σ : Type} {P : Cache σ → Prop}

theorem fair_within (limits : Limits) : (within P named).Fair limits limits where
  error_self _ := rfl
  evaluate site vars vars' e same inside := by
    rw [Site.evaluate, Site.evaluate, (Expr.agree_values same e inside).1]
    cases Stencil.evaluate vars' e with
    | ok value => exact .ok rfl
    | error fault => exact .error (fault_withoutSuggestions site fault)
  insert name value _ _ same := Fields.agreeOn_insert same name value
  limits := .inl rfl

theorem follows_guarded (action : Action (Cache σ) Program)
    (guards : Guards P action (fun program => ∀ x ∈ program.names, named x) fun _ => True) :
    (within P named).Follows (within P named).cache (within P named).programs action action := by
  rintro cache _ ⟨rfl, holds⟩
  have ended := guards cache holds
  cases done : action cache with
  | ok program after =>
      rw [done] at ended
      exact .ok ⟨rfl, ended.1⟩ ⟨rfl, ended.2⟩
  | error e after =>
      rw [done] at ended
      exact .error rfl ⟨rfl, ended.2⟩

end Comparison

theorem Renderer.unsuggested_render {σ : Type} [Store σ] {P : Cache σ → Prop} (compiler : Compiler) (limits : Limits)
    (guards : ∀ name, Guards P (Cache.ensureFresh compiler name) (fun program => ∀ x ∈ program.names, named x)
      fun _ => True)
    (name : String) (data data' : Fields) (agree : data.AgreeOn named data') (cache : Cache σ) (holds : P cache) :
    (render ⟨compiler, limits⟩ name data).unsuggested cache = (render ⟨compiler, limits⟩ name data').unsuggested cache := by
  have rendered := Comparison.follows_render (Comparison.fair_within limits) compiler compiler
    (fun name => Comparison.follows_guarded _ (guards name)) name data data' agree cache cache ⟨rfl, holds⟩
  simp only [unsuggested]
  generalize render ⟨compiler, limits⟩ name data cache = first at rendered
  generalize render ⟨compiler, limits⟩ name data' cache = second at rendered
  cases rendered with
  | ok same related =>
      obtain rfl := same
      obtain rfl := related.1
      rfl
  | error same related =>
      obtain rfl := related.1
      exact congrArg (EStateM.Result.error · _) same
  | excused excuse => exact excuse.elim

end Agreement

namespace Memory

variable (format : Template.EchoFormat) (key : String → String)

def Names (store : Memory) (x : String) : Prop :=
  ∃ name program, (store.program format name = .ok program ∨ store.Reusable key name program) ∧ x ∈ program.names

variable {format key} {store : Memory}

theorem program_addArtifact (place : String) (artifact : Artifact) (name : String) :
    (store.addArtifact place artifact).program format name = store.program format name :=
  program_congr _ rfl name

theorem names_addArtifact (name : String) (program : Program) (done : store.program format name = .ok program)
    (now : Nat) (x : String) (inside : (store.addArtifact (key name) ⟨program.code, now⟩).Names format key x) :
    store.Names format key x := by
  obtain ⟨other, served, offered, occurs⟩ := inside
  rcases offered with compiled | reusable
  · rw [program_addArtifact] at compiled
    exact ⟨other, served, .inl compiled, occurs⟩
  · obtain ⟨source, artifact, _, found, stored, fresh, read, namesIt⟩ := reusable
    simp only [addArtifact, Table.get_set] at stored
    by_cases same : key other = key name
    · rw [if_pos same] at stored
      obtain rfl := Option.some.inj stored
      rw [Program.names_ofCode program served read] at occurs
      exact ⟨name, program, .inl done, occurs⟩
    · rw [if_neg same] at stored
      exact ⟨other, served, .inr (.intro source artifact served found stored fresh read namesIt), occurs⟩

end Memory

namespace Cache

variable {format : Template.EchoFormat} {key : String → String}

theorem guards_names (named : String → Prop) (now : Nat) (name : String) :
    Guards (fun cache : Cache Memory => ∀ x, cache.store.Names format key x → named x)
      (ensureFresh ⟨format, key, now⟩ name) (fun program => ∀ x ∈ program.names, named x) fun _ => True := by
  intro cache known
  have serves := ensureFresh_serves ⟨format, key, now⟩ cache name
  generalize ensureFresh ⟨format, key, now⟩ name cache = result at serves
  cases serves with
  | missing absent => exact ⟨trivial, known⟩
  | failed source fault found unusable done => exact ⟨trivial, known⟩
  | stored program counts reusable =>
      exact ⟨fun x occurs => known x ⟨name, program, .inr reusable, occurs⟩, known⟩
  | compiled source program counts found unusable done =>
      have compiles := (Memory.program_eq_ok name source found program).mpr done
      refine ⟨fun x occurs => known x ⟨name, program, .inl compiles, occurs⟩, fun x occurs => known x ?_⟩
      exact Memory.names_addArtifact name program compiles now x occurs

theorem program_of_offered (cache : Cache Memory)
    (clean : cache.store.artifacts = [] ∨ Reachable format key cache) (name : String) (program : Program)
    (offered : cache.store.program format name = .ok program ∨ cache.store.Reusable key name program) :
    cache.store.program format name = .ok program := by
  rcases offered with compiles | reusable
  · exact compiles
  · rcases clean with bare | reached
    · obtain ⟨_, _, _, _, stored, _, _, _⟩ := reusable
      rw [bare] at stored
      cases stored
    · exact program_of_reusable name (coherent_of_reachable cache reached) program reusable

/-- Data that agree on the variables that occur in the programs of a store have the same text, or the same
error but for its suggestions, and leave the same cache. Without stored programs, or with those that an engine
has stored, only what the templates compile to counts. -/
theorem render_unnamed (format : Template.EchoFormat) (key : String → String) (now : Nat) (limits : Limits)
    (name : String) (data data' : Fields) :
    (∀ cache : Cache Memory, (∀ x, cache.store.Names format key x → data.get? x = data'.get? x) →
      (Renderer.render ⟨⟨format, key, now⟩, limits⟩ name data).unsuggested cache
        = (Renderer.render ⟨⟨format, key, now⟩, limits⟩ name data').unsuggested cache) ∧
    ∀ cache : Cache Memory, cache.store.artifacts = [] ∨ Reachable format key cache →
      (∀ template program, cache.store.program format template = .ok program →
        ∀ x ∈ program.names, data.get? x = data'.get? x) →
      (Renderer.render ⟨⟨format, key, now⟩, limits⟩ name data).unsuggested cache
        = (Renderer.render ⟨⟨format, key, now⟩, limits⟩ name data').unsuggested cache := by
  have general (cache : Cache Memory) (agree : ∀ x, cache.store.Names format key x → data.get? x = data'.get? x) :=
    Renderer.unsuggested_render ⟨format, key, now⟩ limits (guards_names (cache.store.Names format key) now) name data
      data' agree cache fun _ inside => inside
  refine ⟨general, fun cache clean agree => general cache ?_⟩
  rintro x ⟨template, program, offered, occurs⟩
  exact agree template program (program_of_offered cache clean template program offered) x occurs

def greeting : Cache Memory := ⟨Memory.empty.addSource "page" ⟨"Hi \x7b\x7b $user \x7d\x7d", 1⟩, ⟨0, 0⟩⟩

theorem names_greeting (template : String) (program : Program)
    (done : greeting.store.program .escaping template = .ok program) : program.names = ["user"] := by
  by_cases same : template = "page"
  · subst same
    have compiled : greeting.store.program .escaping "page"
        = .ok ⟨currentFormat, "page", [.text "Hi ", .echo (.call "e" [.var "user"]) 1]⟩ := by
      cbv
    obtain rfl := Except.ok.inj (compiled.symm.trans done)
    rfl
  · have absent : greeting.store.sources.get? template = none := by
      simp [greeting, Memory.addSource, Memory.empty, Table.get_set, same, Table.get?]
    rw [Memory.program_missing template absent] at done
    cases done

def greet (data : Fields) : Action (Cache Memory) String :=
  Renderer.render ⟨⟨.escaping, id, 1⟩, ⟨false, 1, 1, 1⟩⟩ "page" data

theorem render_unnamed_greeting :
    (greet [("user", .string "Ann"), ("usr", .null)]).result? greeting = some "Hi Ann" ∧
    (greet [("user", .string "Ann"), ("usr", .null)]).unsuggested greeting
      = (greet [("user", .string "Ann")]).unsuggested greeting ∧
    ((greet [("usr", .null)]).failure? greeting).bind ViewError.suggestion? = some "Did you mean $usr?" ∧
    (greet [("usr", .null)]).unsuggested greeting = (greet []).unsuggested greeting := by
  have agree (data data' : Fields) (same : data.get? "user" = data'.get? "user") :
      (greet data).unsuggested greeting = (greet data').unsuggested greeting := by
    refine (render_unnamed .escaping id 1 _ "page" data data').2 greeting (.inl rfl)
      fun template program done x inside => ?_
    rw [names_greeting template program done, List.mem_singleton] at inside
    rw [inside, same]
  exact ⟨by decide +kernel, agree _ _ rfl, by decide +kernel, agree _ _ rfl⟩

end Cache

end Stencil
