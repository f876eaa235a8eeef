import Stencil.Cache
import Stencil.Proofs.Render.Invariant

set_option autoImplicit false

namespace Stencil

namespace Action

variable {σ α β : Type} {P : σ → Prop} {A : α → Prop} {B : β → Prop} {E : ViewError → Prop}

-- An action that keeps what holds of the state, also where it fails, and ends only in some ways.
def Guards (P : σ → Prop) (action : Action σ α) (A : α → Prop) (E : ViewError → Prop) : Prop :=
  ∀ s, P s → match action s with
    | .ok a s => A a ∧ P s
    | .error e s => E e ∧ P s

theorem guards_pure (a : α) (good : A a) : Guards P (pure a) A E := fun _ holds => ⟨good, holds⟩

theorem guards_throw (e : ViewError) (failed : E e) : Guards P (throw e) A E := fun _ holds => ⟨failed, holds⟩

theorem guards_bind (action : Action σ α) (next : α → Action σ β) (first : Guards P action A E)
    (more : ∀ a, A a → Guards P (next a) B E) : Guards P (action >>= next) B E := by
  intro s holds
  have ended := first s holds
  simp only [bind, EStateM.bind]
  cases done : action s with
  | ok a s' =>
      rw [done] at ended
      exact more a ended.1 s' ended.2
  | error e s' =>
      rw [done] at ended
      exact ended

theorem ensures_of_guards (action : Action σ α) (guards : Guards P action A E) :
    Ensures P action (fun a s => A a ∧ P s) E := by
  intro s holds
  have ended := guards s holds
  cases done : action s with
  | ok a s' =>
      rw [done] at ended
      exact .ok ended
  | error e s' =>
      rw [done] at ended
      exact .error ended.1

theorem guards_of_ensures (action : Action σ α)
    (ensures : Ensures (fun _ => True) action (fun _ _ => True) E) :
    Guards (fun _ => True) action (fun _ => True) E := by
  intro s _
  have ended := ensures s trivial
  generalize action s = result at ended
  cases ended with
  | ok _ => exact ⟨trivial, trivial⟩
  | error failed => exact ⟨failed, trivial⟩

end Action

open Stencil.Action

structure Store.Guarded {σ : Type} [Store σ] (format : Template.EchoFormat) (P : σ → Prop) (G : Program → Prop)
    (E : ViewError → Prop) : Prop where
  sourceTime : ∀ (store : σ) name e, Store.sourceTime store name = .error e → E e
  artifact : ∀ (store : σ) key e, Store.artifact store key = .error e → E e
  source : ∀ (store : σ) name e, Store.source store name = .error e → E e
  fault : ∀ name fault, E (.ofFault name fault)
  found : ∀ (store : σ) key artifact program, P store → Store.artifact store key = .ok (some artifact) →
    Program.ofCode? artifact.code = some program → G program
  compiled : ∀ (store : σ) name source program, P store → Store.source store name = .ok source →
    Program.compile format name source.text = .ok program →
    G program ∧ ∀ now key, Guards P (Store.write now key program.code) (fun _ => True) E
  lock : ∀ now key, Guards P (Store.lock now key) (fun _ => True) E

namespace Cache

variable {σ : Type} {P : σ → Prop} {E : ViewError → Prop}

theorem guards_ask {α : Type} {A : α → Prop} (question : σ → Except ViewError α)
    (good : ∀ store a, P store → question store = .ok a → A a)
    (failed : ∀ store e, question store = .error e → E e) :
    Guards (fun cache : Cache σ => P cache.store) (ask question) A E := by
  intro cache holds
  rw [ask, get_bind]
  cases asked : question cache.store with
  | ok a => exact ⟨good cache.store a holds asked, holds⟩
  | error e => exact ⟨failed cache.store e asked, holds⟩

theorem guards_inStore {α : Type} {A : α → Prop} (action : Action σ α) (guards : Guards P action A E) :
    Guards (fun cache : Cache σ => P cache.store) (inStore action) A E := by
  intro cache holds
  have ended := guards cache.store holds
  simp only [inStore]
  cases done : action cache.store with
  | ok a store =>
      rw [done] at ended
      exact ended
  | error e store =>
      rw [done] at ended
      exact ended

theorem guards_count (change : Counts → Counts) :
    Guards (fun cache : Cache σ => P cache.store) (count change) (fun _ => True) E :=
  fun _ holds => ⟨trivial, holds⟩

variable [Store σ] {format : Template.EchoFormat} {G : Program → Prop}
  (guarded : Store.Guarded format P G E) (key : String → String) (now : Nat) (name : String)

include guarded

theorem guards_stored :
    Guards (fun cache : Cache σ => P cache.store) (stored? ⟨format, key, now⟩ name)
      (fun found => ∀ program ∈ found, G program) E := by
  have nothing : Guards (fun cache : Cache σ => P cache.store) (pure none)
      (fun found : Option Program => ∀ program ∈ found, G program) E := by
    refine guards_pure none fun program inside => ?_
    cases inside
  refine guards_bind _ _ (A := fun _ => True)
    (guards_ask _ (fun _ _ _ _ => trivial) fun store e => guarded.sourceTime store name e) fun modified _ => ?_
  refine guards_bind _ _ (A := fun found : Option Artifact => ∀ artifact ∈ found, ∀ program,
    Program.ofCode? artifact.code = some program → G program)
    (guards_ask _ ?_ fun store e => guarded.artifact store (key name) e) fun found good => ?_
  · intro store found holds asked artifact inside program read
    obtain rfl := Option.mem_def.mp inside
    exact guarded.found store (key name) artifact program holds asked read
  · cases found with
    | none => exact nothing
    | some artifact =>
        dsimp only
        by_cases old : artifact.modified < modified
        · simp only [old, if_true]
          exact nothing
        · simp only [old, if_false]
          cases read : Program.ofCode? artifact.code with
          | none => exact nothing
          | some program =>
              by_cases named : program.template = name
              · simp only [named, if_true]
                refine guards_bind _ _ (guards_count _) fun _ _ => guards_pure _ fun other inside => ?_
                obtain rfl := Option.some.inj inside
                exact good artifact rfl program read
              · simp only [named, if_false]
                exact nothing

theorem guards_compileAndStore :
    Guards (fun cache : Cache σ => P cache.store) (compileAndStore ⟨format, key, now⟩ name) G E := by
  refine guards_bind _ _ (A := fun source : Source => ∃ store, P store ∧ Store.source store name = .ok source)
    (guards_ask _ (fun store source holds asked => ⟨store, holds, asked⟩) fun store e => guarded.source store name e)
    fun source asked => ?_
  obtain ⟨store, holds, asked⟩ := asked
  cases done : Program.compile format name source.text with
  | error fault =>
      exact guards_throw _ (guarded.fault name fault)
  | ok program =>
      obtain ⟨good, write⟩ := guarded.compiled store name source program holds asked done
      refine guards_bind _ _ (guards_inStore _ (write now (key name))) fun _ _ => ?_
      exact guards_bind _ _ (guards_count _) fun _ _ => guards_pure _ good

theorem guards_compile :
    Guards (fun cache : Cache σ => P cache.store) (compile ⟨format, key, now⟩ name) G E :=
  guards_bind _ _ (guards_inStore _ (guarded.lock now (key name))) fun _ _ =>
    guards_compileAndStore guarded key now name

theorem guards_ensureFresh :
    Guards (fun cache : Cache σ => P cache.store) (ensureFresh ⟨format, key, now⟩ name) G E := by
  refine guards_bind _ _ (guards_stored guarded key now name) fun found good => ?_
  cases found with
  | some program => exact guards_pure _ (good program rfl)
  | none =>
      refine guards_bind _ _ (guards_inStore _ (guarded.lock now (key name))) fun _ _ => ?_
      refine guards_bind _ _ (guards_stored guarded key now name) fun again good => ?_
      cases again with
      | some program => exact guards_pure _ (good program rfl)
      | none => exact guards_compileAndStore guarded key now name

end Cache

end Stencil
