import Stencil.Proofs.Cache.Lookup
import Stencil.Proofs.Program.Compile

set_option autoImplicit false

namespace Stencil

namespace Action

variable {σ α : Type}

def answer (action : Action σ α) (s : σ) : Except ViewError α :=
  match action s with
  | .ok a _ => .ok a
  | .error e _ => .error e

def after (action : Action σ α) (s : σ) : σ :=
  match action s with
  | .ok _ s => s
  | .error _ s => s

def Gives (action : Action σ α) (s : σ) (expected : Except ViewError α) (P : σ → Prop) : Prop :=
  action.answer s = expected ∧ P (action.after s)

def result? (action : Action σ α) (s : σ) : Option α :=
  match action s with
  | .ok a _ => some a
  | .error _ _ => none

def failure? (action : Action σ α) (s : σ) : Option ViewError :=
  match action s with
  | .ok _ _ => none
  | .error e _ => some e

theorem ok_of_result (action : Action σ α) (s : σ) (a : α) (given : action.result? s = some a) :
    ∃ after, action s = .ok a after := by
  rw [result?] at given
  split at given
  · rename_i b after done
    obtain rfl := Option.some.inj given
    exact ⟨after, done⟩
  · cases given

theorem error_of_failure (action : Action σ α) (s : σ) (e : ViewError) (failed : action.failure? s = some e) :
    ∃ after, action s = .error e after := by
  rw [failure?] at failed
  split at failed
  · cases failed
  · rename_i e' after done
    obtain rfl := Option.some.inj failed
    exact ⟨after, done⟩

end Action

structure Template.Storable (format : Template.EchoFormat) (name text : String) : Prop where
  short : 1 + Text.breaks text.toList < Decimal.wordLimit
  reads : ∀ program, Program.compile format name text = .ok program → program.FloatsReadBack

theorem Template.Storable.ofCode {format : Template.EchoFormat} {name text : String} {program : Program}
    (storable : Template.Storable format name text) (done : Program.compile format name text = .ok program) :
    Program.ofCode? program.code = some program :=
  Program.ofCode_compile format name text program storable.short (storable.reads program done) done

namespace Memory

def program (format : Template.EchoFormat) (store : Memory) (name : String) : Except ViewError Program := do
  let source ← store.source name
  (Program.compile format name source.text).mapError (.ofFault name)

-- A stored program that names its template, and is not older than it, was compiled from the text that is there. The name in
-- the program decides for whom it is, so that two names may have one key.
structure Coherent (format : Template.EchoFormat) (key : String → String) (store : Memory) : Prop where
  storable : ∀ name source, store.sources.get? name = some source → Template.Storable format name source.text
  current : ∀ artifact program, store.artifacts.get? (key program.template) = some artifact →
    Program.ofCode? artifact.code = some program →
    ∃ source, store.sources.get? program.template = some source ∧
      (source.modified ≤ artifact.modified →
        Program.compile format program.template source.text = .ok program)

variable {format : Template.EchoFormat} {key : String → String} {store : Memory}

theorem coherent_bare (store : Memory) (bare : store.artifacts = [])
    (storable : ∀ name source, store.sources.get? name = some source →
      Template.Storable format name source.text) : store.Coherent format key := by
  refine ⟨storable, fun artifact program found => ?_⟩
  rw [bare] at found
  simp only [Table.get?, reduceCtorEq] at found

theorem program_of_source (name : String) (source : Source) (found : store.sources.get? name = some source) :
    store.program format name = (Program.compile format name source.text).mapError (.ofFault name) := by
  simp only [program, Memory.source, found, bind, Except.bind]

theorem program_eq_ok (name : String) (source : Source) (found : store.sources.get? name = some source)
    (program : Program) :
    store.program format name = .ok program ↔ Program.compile format name source.text = .ok program := by
  rw [program_of_source name source found]
  cases Program.compile format name source.text with
  | ok other =>
      change (Except.ok other : Except ViewError Program) = .ok program ↔ _
      simp only [Except.ok.injEq]
  | error fault =>
      change Except.error (ViewError.ofFault name fault) = .ok program ↔ _
      simp only [reduceCtorEq]

theorem program_missing (name : String) (missing : store.sources.get? name = none) :
    store.program format name = .error (.templateNotFound name name) := by
  simp only [program, Memory.source, missing, bind, Except.bind]

theorem program_congr (other : Memory) (sources : store.sources = other.sources) (name : String) :
    store.program format name = other.program format name := by
  simp only [program, Memory.source, sources]

theorem coherent_write (coherent : store.Coherent format key) (now : Nat) (name : String) (source : Source)
    (program : Program) (found : store.sources.get? name = some source)
    (done : Program.compile format name source.text = .ok program) :
    (store.addArtifact (key name) ⟨program.code, now⟩).Coherent format key := by
  refine ⟨coherent.storable, fun artifact other stored read => ?_⟩
  simp only [addArtifact, Table.get_set] at stored
  by_cases same : key other.template = key name
  · rw [if_pos same] at stored
    obtain rfl := Option.some.inj stored
    rw [(coherent.storable name source found).ofCode done] at read
    obtain rfl := Option.some.inj read
    have named := (Program.compile_parts format name source.text program done).2.1
    rw [named]
    exact ⟨source, found, fun _ => done⟩
  · rw [if_neg same] at stored
    exact coherent.current artifact other stored read

theorem coherent_addSource (coherent : store.Coherent format key) (name : String) (source : Source)
    (storable : Template.Storable format name source.text)
    (later : ∀ old, store.sources.get? name = some old → old.modified ≤ source.modified ∧
      (old.text ≠ source.text → ∀ artifact, store.artifacts.get? (key name) = some artifact →
        artifact.modified < source.modified)) :
    (store.addSource name source).Coherent format key := by
  refine ⟨fun other found => ?_, fun artifact program stored read => ?_⟩
  · simp only [addSource, Table.get_set]
    by_cases same : other = name
    · rw [if_pos same, same]
      intro inserted
      obtain rfl := Option.some.inj inserted
      exact storable
    · rw [if_neg same]
      exact coherent.storable other found
  · obtain ⟨old, known, current⟩ := coherent.current artifact program stored read
    simp only [addSource, Table.get_set]
    by_cases same : program.template = name
    · rw [if_pos same]
      rw [same] at known stored current
      obtain ⟨forward, changed⟩ := later old known
      refine ⟨source, rfl, fun fresh => ?_⟩
      by_cases text : old.text = source.text
      · rw [same, ← text]
        exact current (by omega)
      · have newer := changed text artifact stored
        omega
    · rw [if_neg same]
      exact ⟨old, known, current⟩

theorem coherent_touchSource (coherent : store.Coherent format key) (name : String) (modified : Nat)
    (later : ∀ old, store.sources.get? name = some old → old.modified ≤ modified) :
    ((store.touchSource name modified).getD store).Coherent format key := by
  cases found : store.sources.get? name with
  | none => simpa only [touchSource, found, Option.map_none, Option.getD_none] using coherent
  | some source =>
      simp only [touchSource, found, Option.map_some, Option.getD_some]
      refine coherent_addSource coherent name _ (coherent.storable name source found) fun old known => ?_
      obtain rfl := Option.some.inj (found.symm.trans known)
      exact ⟨later source found, fun changed => absurd rfl changed⟩

end Memory

namespace Cache

open Stencil.Action

variable {format : Template.EchoFormat} {key : String → String} {cache : Cache Memory}

structure Kept (format : Template.EchoFormat) (key : String → String) (before after : Cache Memory) : Prop where
  sources : after.store.sources = before.store.sources
  coherent : after.store.Coherent format key

section Lookups

variable (now : Nat) (name : String)

theorem program_of_reusable (coherent : cache.store.Coherent format key) (program : Program)
    (reusable : cache.store.Reusable key name program) : cache.store.program format name = .ok program := by
  obtain ⟨source, artifact, _, found, stored, fresh, read, rfl⟩ := reusable
  obtain ⟨current, known, done⟩ := coherent.current artifact program stored read
  obtain rfl := Option.some.inj (found.symm.trans known)
  exact (Memory.program_eq_ok _ source found program).mpr (done fresh)

theorem compileAndStore_gives (coherent : cache.store.Coherent format key) :
    (compileAndStore ⟨format, key, now⟩ name).Gives cache (cache.store.program format name)
      (Kept format key cache) := by
  cases found : cache.store.sources.get? name with
  | none =>
      rw [Memory.program_missing name found]
      simp only [Gives, answer, after, compileAndStore_missing _ cache name found]
      exact ⟨trivial, rfl, coherent⟩
  | some source =>
      rw [Memory.program_of_source name source found]
      cases done : Program.compile format name source.text with
      | error fault =>
          simp only [Gives, answer, after, compileAndStore_failed ⟨format, key, now⟩ cache name source fault found done]
          exact ⟨rfl, rfl, coherent⟩
      | ok program =>
          simp only [Gives, answer, after, compileAndStore_done ⟨format, key, now⟩ cache name source program found done]
          exact ⟨rfl, rfl, Memory.coherent_write coherent now name source program found done⟩

theorem compile_gives (coherent : cache.store.Coherent format key) :
    (compile ⟨format, key, now⟩ name).Gives cache (cache.store.program format name) (Kept format key cache) :=
  compileAndStore_gives now name coherent

theorem ensureFresh_gives (coherent : cache.store.Coherent format key) :
    (ensureFresh ⟨format, key, now⟩ name).Gives cache (cache.store.program format name)
      (Kept format key cache) := by
  have serves := ensureFresh_serves ⟨format, key, now⟩ cache name
  simp only [Gives, answer, after]
  generalize ensureFresh ⟨format, key, now⟩ name cache = result at serves
  cases serves with
  | missing absent => exact ⟨(Memory.program_missing name absent).symm, rfl, coherent⟩
  | stored program counts reusable =>
      exact ⟨(program_of_reusable name coherent program reusable).symm, rfl, coherent⟩
  | failed source fault found unusable done =>
      rw [Memory.program_of_source name source found, done]
      exact ⟨rfl, rfl, coherent⟩
  | compiled source program counts found unusable done =>
      rw [Memory.program_of_source name source found, done]
      exact ⟨rfl, rfl, Memory.coherent_write coherent now name source program found done⟩

end Lookups

end Cache

end Stencil
