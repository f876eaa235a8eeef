import Stencil.Proofs.Render.Simulation

set_option autoImplicit false

namespace Stencil

open Comparison

variable {σ τ : Type} (c : Comparison σ τ) (R : σ → τ → Prop)

structure Cache.Alongside (first : Cache σ) (second : Cache τ) : Prop where
  stores : R first.store second.store
  counts : first.counts = second.counts

structure Store.Interchanges [Store σ] [Store τ] (key : String → String) : Prop where
  source : ∀ s t name, R s t → c.Answers Eq (Store.source s name) (Store.source t name)
  sourceTime : ∀ s t name, R s t → c.Answers Eq (Store.sourceTime s name) (Store.sourceTime t name)
  artifact : ∀ s t name, R s t → c.Answers Eq (Store.artifact s (key name)) (Store.artifact t (key name))
  artifactTime : ∀ s t name, R s t → c.Answers Eq (Store.artifactTime s (key name)) (Store.artifactTime t (key name))
  write : ∀ now name code, c.Follows R Eq (Store.write now (key name) code) (Store.write now (key name) code)
  clear : c.Follows R Eq Store.clear Store.clear
  lock : ∀ now name, c.Follows R Eq (Store.lock now (key name)) (Store.lock now (key name))

namespace Cache

variable {c R} {α β : Type} {V : α → β → Prop}

theorem follows_ask (question : σ → Except ViewError α) (question' : τ → Except ViewError β)
    (answers : ∀ s t, R s t → c.Answers V (question s) (question' t)) :
    c.Follows (Alongside R) V (ask question) (ask question') := by
  intro s t alongside
  have answer := answers s.store t.store alongside.stores
  rw [ask, ask, Action.get_bind, Action.get_bind]
  generalize question s.store = first at answer
  generalize question' t.store = second at answer
  cases answer with
  | ok same => exact .ok same alongside
  | error same => exact .error same alongside
  | excused excuse => exact .excused excuse

theorem follows_inStore (first : Action σ α) (second : Action τ β) (follows : c.Follows R V first second) :
    c.Follows (Alongside R) V (inStore first) (inStore second) := by
  intro s t alongside
  have meets := follows s.store t.store alongside.stores
  rw [inStore, inStore]
  generalize first s.store = left at meets
  generalize second t.store = right at meets
  cases meets with
  | ok same related => exact .ok same ⟨related, alongside.counts⟩
  | error same related => exact .error same ⟨related, alongside.counts⟩
  | excused excuse => exact .excused excuse

theorem follows_count (change : Counts → Counts) :
    c.Follows (Alongside R) Eq (count change : Action (Cache σ) Unit) (count change) :=
  fun _ _ alongside => .ok rfl ⟨alongside.stores, congrArg change alongside.counts⟩

section Compilers

variable [Store σ] [Store τ] {compiler : Compiler} (stores : Store.Interchanges c R compiler.key)
  (self : ∀ e, c.error e e) (name : String)

include stores

theorem follows_stored :
    c.Follows (Alongside R) Eq (stored? compiler name : Action (Cache σ) _) (stored? compiler name) := by
  refine follows_bind _ _ _ _ (follows_ask _ _ fun s t => stores.sourceTime s t name) fun modified _ same => ?_
  obtain rfl := same
  refine follows_bind _ _ _ _ (follows_ask _ _ fun s t => stores.artifact s t name) fun found _ same => ?_
  obtain rfl := same
  have nothing : c.Follows (Alongside R) Eq (pure none : Action (Cache σ) (Option Program)) (pure none) :=
    follows_pure rfl
  cases found with
  | none => exact nothing
  | some artifact =>
      dsimp only
      by_cases old : artifact.modified < modified
      · simp only [old, if_true]
        exact nothing
      · simp only [old, if_false]
        cases Program.ofCode? artifact.code with
        | none => exact nothing
        | some program =>
            by_cases named : program.template = name
            · simp only [named, if_true]
              exact follows_bind _ _ _ _ (follows_count _) fun _ _ _ => follows_pure rfl
            · simp only [named, if_false]
              exact nothing

include self

theorem follows_compileAndStore :
    c.Follows (Alongside R) Eq (compileAndStore compiler name : Action (Cache σ) _) (compileAndStore compiler name) := by
  refine follows_bind _ _ _ _ (follows_ask _ _ fun s t => stores.source s t name) fun source _ same => ?_
  obtain rfl := same
  cases Program.compile compiler.format name source.text with
  | error fault => exact follows_throw (self _)
  | ok program =>
      refine follows_bind _ _ _ _ (follows_inStore _ _ (stores.write compiler.now name program.code)) fun _ _ _ => ?_
      exact follows_bind _ _ _ _ (follows_count _) fun _ _ _ => follows_pure rfl

theorem follows_compile :
    c.Follows (Alongside R) Eq (compile compiler name : Action (Cache σ) _) (compile compiler name) :=
  follows_bind _ _ _ _ (follows_inStore _ _ (stores.lock compiler.now name)) fun _ _ _ =>
    follows_compileAndStore stores self name

theorem follows_ensureFresh :
    c.Follows (Alongside R) Eq (ensureFresh compiler name : Action (Cache σ) _) (ensureFresh compiler name) := by
  refine follows_bind _ _ _ _ (follows_stored stores name) fun found _ same => ?_
  obtain rfl := same
  cases found with
  | some program => exact follows_pure rfl
  | none =>
      refine follows_bind _ _ _ _ (follows_inStore _ _ (stores.lock compiler.now name)) fun _ _ _ => ?_
      refine follows_bind _ _ _ _ (follows_stored stores name) fun again _ same => ?_
      obtain rfl := same
      cases again with
      | some program => exact follows_pure rfl
      | none => exact follows_compileAndStore stores self name

omit self in
theorem follows_isExpired :
    c.Follows (Alongside R) Eq (isExpired compiler name : Action (Cache σ) _) (isExpired compiler name) := by
  refine follows_bind _ _ _ _ (follows_ask _ _ fun s t => stores.sourceTime s t name) fun modified _ same => ?_
  obtain rfl := same
  refine follows_bind _ _ _ _ (follows_ask _ _ fun s t => stores.artifactTime s t name) fun found _ same => ?_
  obtain rfl := same
  cases found <;> exact follows_pure rfl

end Compilers

end Cache

namespace Comparison

variable {c}

theorem follows_mono {S T α β : Type} {Q : S → T → Prop} {V W : α → β → Prop} (first : Action S α) (second : Action T β)
    (weaker : ∀ a b, V a b → W a b) (follows : c.Follows Q V first second) : c.Follows Q W first second := by
  intro s t related
  have meets := follows s t related
  generalize first s = left at meets
  generalize second t = right at meets
  cases meets with
  | ok same after => exact .ok (weaker _ _ same) after
  | error same after => exact .error same after
  | excused excuse => exact .excused excuse

end Comparison

def Comparison.exchanged (R : σ → τ → Prop) (error : ViewError → ViewError → Prop) (excuses : ViewError → Prop) :
    Comparison σ τ :=
  ⟨Cache.Alongside R, Eq, error, excuses, fun _ => True⟩

section Renders

variable {R} [Store σ] [Store τ] {error : ViewError → ViewError → Prop} {excuses : ViewError → Prop}
  {compiler : Compiler} (stores : Store.Interchanges (exchanged R error excuses) R compiler.key)
  (self : ∀ e, error e e) (limits : Limits) (name : String)

include stores self

theorem Renderer.follows_exchanged (data : Fields) : (exchanged R error excuses).Follows (Cache.Alongside R) Eq
    (render ⟨compiler, limits⟩ name data) (render ⟨compiler, limits⟩ name data) := by
  have fair : (exchanged R error excuses).Fair limits limits :=
    { error_self := self
      evaluate := fun site vars _ e same _ => by
        obtain rfl := same
        exact answers_self _ self
      insert := fun name value _ _ same => congrArg (Fields.insert name value) same
      limits := .inl rfl }
  refine follows_render fair compiler compiler (fun name => ?_) name data data rfl
  exact follows_mono _ _ (fun _ _ same => ⟨same, fun _ _ => trivial⟩) (Cache.follows_ensureFresh stores self name)

theorem Renderer.follows_retrieve (data : Value) : (exchanged R error excuses).Follows (Cache.Alongside R) Eq
    (retrieve ⟨compiler, limits⟩ name data) (retrieve ⟨compiler, limits⟩ name data) := by
  cases data with
  | object fields => exact follows_exchanged stores self limits name fields
  | null | bool _ | number _ | string _ | list _ => exact follows_throw (self _)

end Renders

end Stencil
