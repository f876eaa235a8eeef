import Stencil.Proofs.Cache.Staleness
import Stencil.Proofs.Render.Simulation

set_option autoImplicit false

namespace Stencil

structure Recorded (σ : Type) where
  store : σ
  names : List String

namespace Cache

open Stencil.Action

structure Reused (before after : Cache Memory) : Prop where
  store : after.store = before.store
  compiled : after.counts.compiled = before.counts.compiled
  reused : after.counts.reused = before.counts.reused + 1

structure Compiled (compiler : Compiler) (name : String) (program : Program) (before after : Cache Memory) : Prop where
  sources : after.store.sources = before.store.sources
  artifacts : ∀ key, after.store.artifacts.get? key
    = if key = compiler.key name then some ⟨program.code, compiler.now⟩ else before.store.artifacts.get? key
  compiled : after.counts.compiled = before.counts.compiled + 1
  reused : after.counts.reused = before.counts.reused

section Settled

variable (compiler : Compiler) (cache : Cache Memory) (name : String)

theorem compile_settles : match compile compiler name cache with
    | .ok program after => Compiled compiler name program cache after
    | .error _ after => after = cache := by
  have same : compile compiler name cache = compileAndStore compiler name cache := rfl
  rw [same]
  cases found : cache.store.sources.get? name with
  | none => rw [compileAndStore_missing compiler cache name found]
  | some source =>
      cases done : Program.compile compiler.format name source.text with
      | error fault => rw [compileAndStore_failed compiler cache name source fault found done]
      | ok program =>
          rw [compileAndStore_done compiler cache name source program found done]
          exact ⟨rfl, fun key => Table.get_set _ _ key _, rfl, rfl⟩

theorem ensureFresh_settles : match ensureFresh compiler name cache with
    | .ok program after => Reused cache after ∨ Compiled compiler name program cache after
    | .error _ after => after = cache := by
  cases found : cache.store.sources.get? name with
  | none =>
      have missing : ensureFresh compiler name cache = .error (.templateNotFound name name) cache := by
        simp only [ensureFresh, bind, EStateM.bind, stored_missing compiler cache name found]
      rw [missing]
  | some source =>
      by_cases usable : ∃ program, cache.store.Reusable compiler.key name program
      · obtain ⟨program, reusable⟩ := usable
        obtain ⟨_, _, reused⟩ := reuses_of_reusable compiler cache name source found program reusable
        rw [reused]
        exact .inl ⟨rfl, rfl, rfl⟩
      · have again : ensureFresh compiler name cache = compile compiler name cache :=
          recompiles_of_unusable compiler cache name source found fun program reusable => usable ⟨program, reusable⟩
        have settles := compile_settles compiler cache name
        rw [again]
        generalize compile compiler name cache = result at settles
        cases result with
        | ok program after => exact .inr settles
        | error e after => exact settles

end Settled

section Records

variable {σ : Type}

def recorded (cache : Cache σ) : Cache (Recorded σ) := ⟨⟨cache.store, []⟩, cache.counts⟩

def unrecorded (cache : Cache (Recorded σ)) : Cache σ := ⟨cache.store.store, cache.counts⟩

def record (fetch : String → Action (Cache σ) Program) (name : String) : Action (Cache (Recorded σ)) Program :=
  fun cache =>
    match fetch name cache.unrecorded with
    | .ok program after => .ok program ⟨⟨after.store, cache.store.names ++ [name]⟩, after.counts⟩
    | .error e after => .error e ⟨⟨after.store, cache.store.names⟩, after.counts⟩

end Records

structure Tallies (before : Counts) (first : Cache (Recorded Memory)) (second : Cache Memory) : Prop where
  same : first.unrecorded = second
  total : second.counts.compiled + second.counts.reused = before.compiled + before.reused + first.store.names.length

section Tallied

variable (before : Counts) (compiler : Compiler)

theorem tallies_record (name : String) :
    Alike (Tallies before) (record (ensureFresh compiler) name) (ensureFresh compiler name) := by
  rintro first _ ⟨rfl, total⟩
  have settles := ensureFresh_settles compiler first.unrecorded name
  rw [record]
  generalize ensureFresh compiler name first.unrecorded = result at settles
  cases result with
  | error e after =>
      obtain rfl := settles
      exact .error ⟨rfl, total⟩
  | ok program after =>
      refine .ok ⟨rfl, ?_⟩
      dsimp only
      rw [List.length_append, List.length_singleton, ← Nat.add_assoc, ← total]
      rcases settles with reused | compiled
      · rw [reused.compiled, reused.reused, ← Nat.add_assoc]
      · rw [compiled.compiled, compiled.reused, Nat.add_right_comm]

theorem tallies_render (limits : Limits) (name : String) (data : Fields) :
    Alike (Tallies before) (Renderer.renderOver limits (record (ensureFresh compiler)) name data)
      (Renderer.render ⟨compiler, limits⟩ name data) := by
  rw [Renderer.render_over]
  exact Renderer.alike_renderOver _ _ limits (tallies_record before compiler) name data

end Tallied

/-- A program is obtained in one of two ways: as it is stored, with nothing changed but the count of those, or
compiled, with its code the only change of the store. Compiling it on demand is always the latter. Where there is no
program, nothing has changed. A render, also one that fails, does the same if the programs are recorded that it
obtains, and it has counted as many. -/
theorem counts_obtained (compiler : Compiler) (cache : Cache Memory) :
    (∀ name, match ensureFresh compiler name cache with
      | .ok program after => Reused cache after ∨ Compiled compiler name program cache after
      | .error _ after => after = cache) ∧
    (∀ name, match compile compiler name cache with
      | .ok program after => Compiled compiler name program cache after
      | .error _ after => after = cache) ∧
    ∀ limits name data,
      let rendered := Renderer.render ⟨compiler, limits⟩ name data
      let watched := Renderer.renderOver limits (record (ensureFresh compiler)) name data
      rendered = Renderer.renderOver limits (ensureFresh compiler) name data ∧
      watched.answer cache.recorded = rendered.answer cache ∧
      (watched.after cache.recorded).unrecorded = rendered.after cache ∧
      (rendered.after cache).counts.compiled + (rendered.after cache).counts.reused
        = cache.counts.compiled + cache.counts.reused + (watched.after cache.recorded).store.names.length := by
  refine ⟨ensureFresh_settles compiler cache, compile_settles compiler cache, fun limits name data => ?_⟩
  intro rendered watched
  refine ⟨Renderer.render_over ⟨compiler, limits⟩ name data, ?_⟩
  have tallies := tallies_render cache.counts compiler limits name data cache.recorded cache ⟨rfl, rfl⟩
  rw [answer, answer, after, after]
  change Agrees _ (watched cache.recorded) (rendered cache) at tallies
  generalize watched cache.recorded = left at tallies
  generalize rendered cache = right at tallies
  cases tallies with
  | ok related => exact ⟨rfl, related.same, related.total⟩
  | error related => exact ⟨rfl, related.same, related.total⟩

def withParts : Cache Memory :=
  ⟨⟨[("page", ⟨"@include('part') @include('part')", 1⟩), ("part", ⟨"text", 1⟩)], []⟩, ⟨0, 0⟩⟩

example :
    let watched := Renderer.renderOver ⟨false, 2, 2, 2⟩ (record (ensureFresh ⟨.escaping, id, 3⟩)) "page" []
    (watched.after withParts.recorded).store.names = ["page", "part", "part"] ∧
      (watched.after withParts.recorded).counts = ⟨2, 1⟩ := by
  decide +kernel

end Cache

end Stencil
