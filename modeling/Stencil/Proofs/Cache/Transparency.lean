import Mathlib
import Stencil.Proofs.Cache.Coherence
import Stencil.Proofs.Render.Simulation

set_option autoImplicit false

namespace Stencil

open Stencil.Action

theorem Action.agrees_of_gives {σ τ α : Type} {R : σ → τ → Prop} {P : σ → Prop} {Q : τ → Prop}
    {first : Action σ α} {second : Action τ α} {s : σ} {t : τ} {expected : Except ViewError α}
    (left : first.Gives s expected P) (right : second.Gives t expected Q) (join : ∀ s t, P s → Q t → R s t) :
    Agrees R (first s) (second t) := by
  obtain ⟨answered, reached⟩ := left
  obtain ⟨answered', reached'⟩ := right
  rw [← answered'] at answered
  simp only [answer, after] at answered reached reached'
  cases one : first s with
  | ok a s' =>
      cases other : second t with
      | ok b t' =>
          simp only [one, other] at answered reached reached'
          obtain rfl := Except.ok.inj answered
          exact .ok (join _ _ reached reached')
      | error e t' => simp only [one, other, reduceCtorEq] at answered
  | error e s' =>
      cases other : second t with
      | ok b t' => simp only [one, other, reduceCtorEq] at answered
      | error e' t' =>
          simp only [one, other] at answered reached reached'
          obtain rfl := Except.error.inj answered
          exact .error (join _ _ reached reached')

theorem Action.after_of_agrees {σ τ α : Type} {R : σ → τ → Prop} {first : Action σ α} {second : Action τ α}
    {s : σ} {t : τ} (agrees : Agrees R (first s) (second t)) : R (first.after s) (second.after t) := by
  simp only [after]
  generalize first s = left at agrees
  generalize second t = right at agrees
  cases agrees with
  | ok related => exact related
  | error related => exact related

theorem Action.answer_of_agrees {σ τ α : Type} {R : σ → τ → Prop} {first : Action σ α} {second : Action τ α}
    {s : σ} {t : τ} (agrees : Agrees R (first s) (second t)) : first.answer s = second.answer t := by
  simp only [answer]
  generalize first s = left at agrees
  generalize second t = right at agrees
  cases agrees with
  | ok _ => rfl
  | error _ => rfl

namespace Cache

-- What is done to a cache over a store in memory. Only the engine stores programs, at any time.
inductive Operation where
  | addSource (name : String) (source : Source)
  | touchSource (name : String) (modified : Nat)
  | ensureFresh (now : Nat) (name : String)
  | compile (now : Nat) (name : String)
  | render (now : Nat) (limits : Limits) (name : String) (data : Fields)
  | clear
  | reopen

section Operations

variable (format : Template.EchoFormat) (key : String → String)

def Operation.run (cache : Cache Memory) : Operation → Cache Memory
  | .addSource name source => { cache with store := cache.store.addSource name source }
  | .touchSource name modified =>
      { cache with store := (cache.store.touchSource name modified).getD cache.store }
  | .ensureFresh now name => (Cache.ensureFresh ⟨format, key, now⟩ name).after cache
  | .compile now name => (Cache.compile ⟨format, key, now⟩ name).after cache
  | .render now limits name data => (Renderer.render ⟨⟨format, key, now⟩, limits⟩ name data).after cache
  | .clear => (inStore Store.clear).after cache
  | .reopen => { cache with counts := ⟨0, 0⟩ }

/-- The time of a template does not go back, and a text that changes is newer than what is stored under the
key of its name then. -/
def Operation.Allowed (store : Memory) : Operation → Prop
  | .addSource name source =>
      Template.Storable format name source.text ∧
        ∀ old, store.sources.get? name = some old → old.modified ≤ source.modified ∧
          (old.text ≠ source.text → ∀ artifact, store.artifacts.get? (key name) = some artifact →
            artifact.modified < source.modified)
  | .touchSource name modified => ∀ old, store.sources.get? name = some old → old.modified ≤ modified
  | _ => True

inductive Reachable : Cache Memory → Prop where
  | start (sources : Table Source)
      (storable : ∀ name source, Table.get? name sources = some source →
        Template.Storable format name source.text) :
      Reachable ⟨⟨sources, []⟩, ⟨0, 0⟩⟩
  | step (cache : Cache Memory) (operation : Operation) (reached : Reachable cache)
      (allowed : operation.Allowed format key cache.store) : Reachable (operation.run format key cache)

structure Level (first second : Cache Memory) : Prop where
  sources : first.store.sources = second.store.sources
  left : first.store.Coherent format key
  right : second.store.Coherent format key

def bare (cache : Cache Memory) : Cache Memory := { cache with store := { cache.store with artifacts := [] } }

end Operations

variable {format : Template.EchoFormat} {key : String → String}

theorem level_bare (cache : Cache Memory) (coherent : cache.store.Coherent format key) :
    Level format key cache cache.bare :=
  ⟨rfl, coherent, Memory.coherent_bare _ rfl coherent.storable⟩

theorem alike_ensureFresh (now now' : Nat) (name : String) :
    Alike (Level format key) (ensureFresh ⟨format, key, now⟩ name) (ensureFresh ⟨format, key, now'⟩ name) := by
  intro s t level
  have left := ensureFresh_gives now name level.left
  have right := ensureFresh_gives now' name level.right
  rw [Memory.program_congr t.store level.sources] at left
  refine agrees_of_gives left right fun after after' kept kept' => ⟨?_, kept.coherent, kept'.coherent⟩
  rw [kept.sources, kept'.sources, level.sources]

theorem render_level (now now' : Nat) (limits : Limits) (name : String) (data : Fields)
    (first second : Cache Memory) (level : Level format key first second) :
    Agrees (Level format key) (Renderer.render ⟨⟨format, key, now⟩, limits⟩ name data first)
      (Renderer.render ⟨⟨format, key, now'⟩, limits⟩ name data second) :=
  Renderer.alike_render _ _ limits (alike_ensureFresh now now') name data first second level

theorem coherent_run (cache : Cache Memory) (operation : Operation)
    (coherent : cache.store.Coherent format key) (allowed : operation.Allowed format key cache.store) :
    (operation.run format key cache).store.Coherent format key := by
  cases operation with
  | addSource name source => exact Memory.coherent_addSource coherent name source allowed.1 allowed.2
  | touchSource name modified => exact Memory.coherent_touchSource coherent name modified allowed
  | ensureFresh now name => exact (ensureFresh_gives now name coherent).2.coherent
  | compile now name => exact (compile_gives now name coherent).2.coherent
  | render now limits name data =>
      have agrees := render_level now now limits name data cache cache ⟨rfl, coherent, coherent⟩
      exact (after_of_agrees agrees).left
  | clear => exact Memory.coherent_bare _ rfl coherent.storable
  | reopen => exact coherent

theorem coherent_of_reachable (cache : Cache Memory) (reached : Reachable format key cache) :
    cache.store.Coherent format key := by
  induction reached with
  | start sources storable => exact Memory.coherent_bare _ rfl storable
  | step cache operation _ allowed ih => exact coherent_run cache operation ih allowed

/-- In every state a program that is asked for is what its template compiles to, and a render has the result
that it has without stored programs. -/
theorem transparent (cache : Cache Memory) (reached : Reachable format key cache) :
    (∀ now name, (ensureFresh ⟨format, key, now⟩ name).answer cache = cache.store.program format name) ∧
    ∀ now now' limits name data,
      (Renderer.render ⟨⟨format, key, now⟩, limits⟩ name data).answer cache
        = (Renderer.render ⟨⟨format, key, now'⟩, limits⟩ name data).answer cache.bare := by
  have coherent := coherent_of_reachable cache reached
  refine ⟨fun now name => (ensureFresh_gives now name coherent).1, fun now now' limits name data => ?_⟩
  exact answer_of_agrees (render_level now now' limits name data cache cache.bare (level_bare cache coherent))

def compiled : Cache Memory :=
  [Operation.addSource "page" ⟨"old", 5⟩, .ensureFresh 10 "page"].foldl
    (Operation.run .escaping fun _ => "key") ⟨.empty, ⟨0, 0⟩⟩

def replaced : Cache Memory :=
  Operation.run .escaping (fun _ => "key") compiled (.addSource "page" ⟨"new", 11⟩)

theorem storable_text (text : String) (short : 1 + Text.breaks text.toList < Decimal.wordLimit)
    (done : Program.compile .escaping "page" text = .ok ⟨currentFormat, "page", [.text text]⟩) :
    Template.Storable .escaping "page" text := by
  refine ⟨short, fun program compiled => ?_⟩
  obtain rfl := Except.ok.inj (done.symm.trans compiled)
  exact ⟨trivial, trivial⟩

theorem reachable_replaced : Reachable .escaping (fun _ => "key") replaced := by
  have old : Template.Storable .escaping "page" "old" := storable_text "old" (by decide +kernel) (by cbv)
  have new : Template.Storable .escaping "page" "new" := storable_text "new" (by decide +kernel) (by cbv)
  have started : Reachable .escaping (fun _ => "key") ⟨.empty, ⟨0, 0⟩⟩ := .start [] (by simp [Table.get?])
  have added := started.step _ (.addSource "page" ⟨"old", 5⟩) ⟨old, by simp [Memory.empty, Table.get?]⟩
  have reached : Reachable .escaping (fun _ => "key") compiled :=
    added.step _ (.ensureFresh 10 "page") trivial
  refine reached.step _ (.addSource "page" ⟨"new", 11⟩) ⟨new, fun source found => ?_⟩
  have known : compiled.store.sources.get? "page" = some ⟨"old", 5⟩ := by decide +kernel
  have stamped : (compiled.store.artifacts.get? "key").map Artifact.modified = some 10 := by decide +kernel
  obtain rfl := Option.some.inj (known.symm.trans found)
  refine ⟨by decide, fun _ artifact stored => ?_⟩
  rw [stored] at stamped
  have time := Option.some.inj stamped
  dsimp only at time ⊢
  omega

theorem transparent_replaced :
    (ensureFresh ⟨.escaping, fun _ => "key", 12⟩ "page").answer replaced
      = .ok ⟨currentFormat, "page", [.text "new"]⟩ := by
  rw [(transparent replaced reachable_replaced).1 12 "page"]
  cbv

end Cache

end Stencil
