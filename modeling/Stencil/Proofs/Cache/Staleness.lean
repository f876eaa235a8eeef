import Stencil.Proofs.Cache.Coherence

set_option autoImplicit false

namespace Stencil

namespace Memory

def Unusable (key : String → String) (store : Memory) (name : String) (source : Source) : Prop :=
  ∃ artifact, store.artifacts.get? (key name) = some artifact ∧ source.modified ≤ artifact.modified ∧
    ∀ program, Program.ofCode? artifact.code = some program → program.template ≠ name

end Memory

namespace Cache

open Stencil.Action

def withReuse (cache : Cache Memory) : Cache Memory :=
  { cache with counts := { cache.counts with reused := cache.counts.reused + 1 } }

variable (compiler : Compiler) (cache : Cache Memory) (name : String)

def Reuses : Prop :=
  ∃ program, cache.store.Reusable compiler.key name program ∧
    ensureFresh compiler name cache = .ok program cache.withReuse

def Recompiles : Prop := ensureFresh compiler name cache = compileAndStore compiler name cache

variable (source : Source) (found : cache.store.sources.get? name = some source)

include found

theorem isExpired_eq :
    isExpired compiler name cache
      = .ok ((cache.store.artifacts.get? (compiler.key name)).all (·.modified < source.modified)) cache := by
  simp only [isExpired, bind_ask, Store.sourceTime, Memory.source, found, Except.map, Store.artifactTime]
  cases cache.store.artifacts.get? (compiler.key name) <;> rfl

theorem reuses_of_reusable (program : Program) (reusable : cache.store.Reusable compiler.key name program) :
    Reuses compiler cache name := by
  refine ⟨program, reusable, ?_⟩
  obtain ⟨known, artifact, _, same, stored, fresh, read, rfl⟩ := reusable
  obtain rfl := Option.some.inj (found.symm.trans same)
  have first : stored? compiler program.template cache = .ok (some program) cache.withReuse := by
    simp only [stored?, bind_ask, Store.sourceTime, Memory.source, found, Except.map, Store.artifact, stored, read,
      Nat.not_lt.mpr fresh, if_false, if_true]
    rfl
  simp only [ensureFresh, bind, EStateM.bind, first]
  rfl

theorem recompiles_of_unusable (unusable : ∀ program, ¬ cache.store.Reusable compiler.key name program) :
    Recompiles compiler cache name := by
  rcases stored_reusable compiler cache name source found with ⟨stored, _⟩ | ⟨program, _, _, reusable⟩
  · have locked : inStore (Store.lock compiler.now (compiler.key name)) cache = .ok () cache := rfl
    simp only [Recompiles, ensureFresh, bind, EStateM.bind, stored, locked]
  · exact absurd reusable (unusable program)

theorem not_recompiles (reuses : Reuses compiler cache name) : ¬ Recompiles compiler cache name := by
  obtain ⟨program, _, served⟩ := reuses
  intro same
  rw [Recompiles, served] at same
  cases done : Program.compile compiler.format name source.text with
  | error fault =>
      rw [compileAndStore_failed compiler cache name source fault found done] at same
      cases same
  | ok other =>
      have again := congrArg (fun result => match result with
        | .ok _ after => after.counts.reused
        | .error _ after => after.counts.reused) same
      simp only [compileAndStore, bind_ask, Store.source, Memory.source, found, done] at again
      have grown : cache.counts.reused + 1 = cache.counts.reused := again
      omega

theorem recompiles_of_expired (expired : ∀ artifact, cache.store.artifacts.get? (compiler.key name) = some artifact →
    artifact.modified < source.modified) : Recompiles compiler cache name := by
  refine recompiles_of_unusable compiler cache name source found fun program reusable => ?_
  obtain ⟨known, artifact, _, same, stored, fresh, _, _⟩ := reusable
  obtain rfl := Option.some.inj (found.symm.trans same)
  have older := expired artifact stored
  omega

theorem reuses_or_unusable (fresh : ∃ artifact, cache.store.artifacts.get? (compiler.key name) = some artifact ∧
    source.modified ≤ artifact.modified) :
    Reuses compiler cache name ∨ cache.store.Unusable compiler.key name source := by
  obtain ⟨artifact, stored, newer⟩ := fresh
  by_cases named : ∃ program, Program.ofCode? artifact.code = some program ∧ program.template = name
  · obtain ⟨program, read, same⟩ := named
    exact .inl (reuses_of_reusable compiler cache name source found program
      (.intro source artifact program found stored newer read same))
  · exact .inr ⟨artifact, stored, newer, fun program read same => named ⟨program, read, same⟩⟩

theorem recompiles_of_unreadable (unusable : cache.store.Unusable compiler.key name source) :
    Recompiles compiler cache name := by
  obtain ⟨artifact, stored, _, unread⟩ := unusable
  refine recompiles_of_unusable compiler cache name source found fun program reusable => ?_
  obtain ⟨_, other, _, _, again, _, read, named⟩ := reusable
  obtain rfl := Option.some.inj (stored.symm.trans again)
  exact unread program read named

/-- A template is compiled again if its program is expired, which says that none is stored or an older one, and
also if the stored program is new enough but of no use. Only where there is no such program do the two questions
have the same answer. -/
theorem recompiles_iff :
    ∃ expired, isExpired compiler name cache = .ok expired cache ∧
      (expired = true ↔ ∀ artifact, cache.store.artifacts.get? (compiler.key name) = some artifact →
        artifact.modified < source.modified) ∧
      (Recompiles compiler cache name ↔ expired = true ∨ cache.store.Unusable compiler.key name source) ∧
      (Reuses compiler cache name ↔ ¬ Recompiles compiler cache name) ∧
      ((expired = true ↔ Recompiles compiler cache name) ↔ ¬ cache.store.Unusable compiler.key name source) := by
  have again := not_recompiles compiler cache name source found
  have unread := recompiles_of_unreadable compiler cache name source found
  have old : (cache.store.artifacts.get? (compiler.key name)).all (·.modified < source.modified) = true ↔
      ∀ artifact, cache.store.artifacts.get? (compiler.key name) = some artifact →
        artifact.modified < source.modified := by
    rw [Option.all_eq_true]
    exact ⟨fun all artifact stored => of_decide_eq_true (all artifact stored),
      fun all artifact stored => decide_eq_true (all artifact stored)⟩
  have expires := recompiles_of_expired compiler cache name source found
  have apart : cache.store.Unusable compiler.key name source →
      ¬ ∀ artifact, cache.store.artifacts.get? (compiler.key name) = some artifact →
        artifact.modified < source.modified := by
    rintro ⟨artifact, stored, newer, _⟩ all
    have older := all artifact stored
    omega
  have either : (∀ artifact, cache.store.artifacts.get? (compiler.key name) = some artifact →
      artifact.modified < source.modified) ∨ Reuses compiler cache name ∨
        cache.store.Unusable compiler.key name source := by
    by_cases fresh : ∃ artifact, cache.store.artifacts.get? (compiler.key name) = some artifact ∧
        source.modified ≤ artifact.modified
    · exact .inr (reuses_or_unusable compiler cache name source found fresh)
    · refine .inl fun artifact stored => Nat.lt_of_not_le fun newer => fresh ⟨artifact, stored, newer⟩
  refine ⟨_, isExpired_eq compiler cache name source found, old, ?_, ?_, ?_⟩
  · rw [old]
    exact ⟨fun recompiles => either.imp id (·.resolve_left fun reuses => again reuses recompiles),
      fun reason => reason.elim expires unread⟩
  · exact ⟨again, fun kept => (either.resolve_left fun expired => kept (expires expired)).resolve_right
      fun unusable => kept (unread unusable)⟩
  · rw [old]
    refine ⟨fun same unusable => apart unusable (same.mpr (unread unusable)), fun usable => ⟨expires, fun recompiles => ?_⟩⟩
    exact either.resolve_right fun kept => kept.elim (fun reuses => again reuses recompiles) usable

omit found

def unreadable : Cache Memory := ⟨⟨[("page", ⟨"text", 1⟩)], [("page", ⟨"junk", 2⟩)]⟩, ⟨0, 0⟩⟩

theorem unusable_unreadable : unreadable.store.Unusable id "page" ⟨"text", 1⟩ := by
  refine ⟨⟨"junk", 2⟩, rfl, by decide, fun program read => ?_⟩
  have junk : (Program.ofCode? "junk").isNone = true := by decide +kernel
  rw [read] at junk
  cases junk

theorem recompiles_unreadable :
    unreadable.store.sources.get? "page" = some ⟨"text", 1⟩ ∧
    Recompiles ⟨.escaping, id, 3⟩ unreadable "page" ∧ ¬ Reuses ⟨.escaping, id, 3⟩ unreadable "page" := by
  have found : unreadable.store.sources.get? "page" = some ⟨"text", 1⟩ := rfl
  obtain ⟨expired, _, _, again, kept, _⟩ := recompiles_iff ⟨.escaping, id, 3⟩ unreadable "page" ⟨"text", 1⟩ found
  have recompiles := again.mpr (.inr unusable_unreadable)
  exact ⟨found, recompiles, fun reuses => kept.mp reuses recompiles⟩

/-- A stored text that is no program is not expired, although the page is compiled again. -/
theorem unreadable_not_expired :
    isExpired ⟨.escaping, id, 3⟩ "page" unreadable = .ok false unreadable ∧
    Recompiles ⟨.escaping, id, 3⟩ unreadable "page" ∧
    ((ensureFresh ⟨.escaping, id, 3⟩ "page").after unreadable).counts = ⟨1, 0⟩ := by
  have found : unreadable.store.sources.get? "page" = some ⟨"text", 1⟩ := rfl
  refine ⟨isExpired_eq ⟨.escaping, id, 3⟩ unreadable "page" ⟨"text", 1⟩ found, ?_, by decide +kernel⟩
  exact recompiles_of_unreadable ⟨.escaping, id, 3⟩ unreadable "page" ⟨"text", 1⟩ found unusable_unreadable

end Cache

end Stencil
