import Stencil.Cache
import Stencil.Store.Memory

set_option autoImplicit false

namespace Stencil

inductive Memory.Reusable (key : String → String) (store : Memory) (name : String) : Program → Prop where
  | intro (source : Source) (artifact : Artifact) (program : Program)
      (found : store.sources.get? name = some source) (stored : store.artifacts.get? (key name) = some artifact)
      (fresh : source.modified ≤ artifact.modified) (read : Program.ofCode? artifact.code = some program)
      (named : program.template = name) : Reusable key store name program

namespace Cache

inductive Serves (compiler : Compiler) (cache : Cache Memory) (name : String) :
    EStateM.Result ViewError (Cache Memory) Program → Prop where
  | missing (absent : cache.store.sources.get? name = none) :
      Serves compiler cache name (.error (.templateNotFound name name) cache)
  | stored (program : Program) (counts : Counts) (reusable : cache.store.Reusable compiler.key name program) :
      Serves compiler cache name (.ok program { cache with counts })
  | failed (source : Source) (fault : Template.Fault) (found : cache.store.sources.get? name = some source)
      (unusable : ∀ program, ¬ cache.store.Reusable compiler.key name program)
      (done : Program.compile compiler.format name source.text = .error fault) :
      Serves compiler cache name (.error (.ofFault name fault) cache)
  | compiled (source : Source) (program : Program) (counts : Counts)
      (found : cache.store.sources.get? name = some source)
      (unusable : ∀ program, ¬ cache.store.Reusable compiler.key name program)
      (done : Program.compile compiler.format name source.text = .ok program) :
      Serves compiler cache name
        (.ok program ⟨cache.store.addArtifact (compiler.key name) ⟨program.code, compiler.now⟩, counts⟩)

theorem bind_ask {σ α β : Type} [Store σ] (question : σ → Except ViewError α) (next : α → Action (Cache σ) β)
    (cache : Cache σ) :
    (ask question >>= next) cache
      = match question cache.store with
        | .ok a => next a cache
        | .error e => .error e cache := by
  change ((match question cache.store with | .ok a => pure a | .error e => throw e) >>= next) cache = _
  cases question cache.store <;> rfl

variable (compiler : Compiler) (cache : Cache Memory) (name : String)

theorem stored_missing (missing : cache.store.sources.get? name = none) :
    stored? compiler name cache = .error (.templateNotFound name name) cache := by
  simp only [stored?, bind_ask, Store.sourceTime, Memory.source, missing, Except.map]

theorem stored_reusable (source : Source) (found : cache.store.sources.get? name = some source) :
    (stored? compiler name cache = .ok none cache ∧ ∀ program, ¬ cache.store.Reusable compiler.key name program) ∨
      ∃ program counts, stored? compiler name cache = .ok (some program) { cache with counts } ∧
        cache.store.Reusable compiler.key name program := by
  simp only [stored?, bind_ask, Store.sourceTime, Memory.source, found, Except.map, Store.artifact]
  cases kept : cache.store.artifacts.get? (compiler.key name) with
  | none =>
      refine .inl ⟨rfl, fun program reusable => ?_⟩
      obtain ⟨_, _, _, _, stored, _, _, _⟩ := reusable
      cases kept.symm.trans stored
  | some artifact =>
      by_cases old : artifact.modified < source.modified
      · simp only [old, if_true]
        refine .inl ⟨rfl, fun program reusable => ?_⟩
        obtain ⟨_, _, _, known, stored, fresh, _, _⟩ := reusable
        obtain rfl := Option.some.inj (found.symm.trans known)
        obtain rfl := Option.some.inj (kept.symm.trans stored)
        omega
      · simp only [old, if_false]
        cases read : Program.ofCode? artifact.code with
        | none =>
            refine .inl ⟨rfl, fun program reusable => ?_⟩
            obtain ⟨_, _, _, _, stored, _, again, _⟩ := reusable
            obtain rfl := Option.some.inj (kept.symm.trans stored)
            cases read.symm.trans again
        | some program =>
            by_cases named : program.template = name
            · simp only [named, if_true]
              exact .inr ⟨program, _, rfl, .intro source artifact program found kept (by omega) read named⟩
            · simp only [named, if_false]
              refine .inl ⟨rfl, fun other reusable => ?_⟩
              obtain ⟨_, _, _, _, stored, _, again, named'⟩ := reusable
              obtain rfl := Option.some.inj (kept.symm.trans stored)
              obtain rfl := Option.some.inj (read.symm.trans again)
              exact named named'

theorem compileAndStore_missing (missing : cache.store.sources.get? name = none) :
    compileAndStore compiler name cache = .error (.templateNotFound name name) cache := by
  simp only [compileAndStore, bind_ask, Store.source, Memory.source, missing]

theorem compileAndStore_failed (source : Source) (fault : Template.Fault)
    (found : cache.store.sources.get? name = some source)
    (done : Program.compile compiler.format name source.text = .error fault) :
    compileAndStore compiler name cache = .error (.ofFault name fault) cache := by
  simp only [compileAndStore, bind_ask, Store.source, Memory.source, found, done]
  rfl

theorem compileAndStore_done (source : Source) (program : Program)
    (found : cache.store.sources.get? name = some source)
    (done : Program.compile compiler.format name source.text = .ok program) :
    compileAndStore compiler name cache
      = .ok program ⟨cache.store.addArtifact (compiler.key name) ⟨program.code, compiler.now⟩,
          { cache.counts with compiled := cache.counts.compiled + 1 }⟩ := by
  simp only [compileAndStore, bind_ask, Store.source, Memory.source, found, done]
  rfl

theorem ensureFresh_serves : Serves compiler cache name (ensureFresh compiler name cache) := by
  cases found : cache.store.sources.get? name with
  | none =>
      simp only [ensureFresh, bind, EStateM.bind, stored_missing compiler cache name found]
      exact .missing found
  | some source =>
      rcases stored_reusable compiler cache name source found with
        ⟨stored, unusable⟩ | ⟨program, counts, stored, reusable⟩
      · have locked : inStore (Store.lock compiler.now (compiler.key name)) cache = .ok () cache := rfl
        have same : ensureFresh compiler name cache = compileAndStore compiler name cache := by
          simp only [ensureFresh, bind, EStateM.bind, stored, locked]
        rw [same]
        cases done : Program.compile compiler.format name source.text with
        | error fault =>
            rw [compileAndStore_failed compiler cache name source fault found done]
            exact .failed source fault found unusable done
        | ok program =>
            rw [compileAndStore_done compiler cache name source program found done]
            exact .compiled source program _ found unusable done
      · simp only [ensureFresh, bind, EStateM.bind, stored]
        exact .stored program counts reusable

end Cache

end Stencil
