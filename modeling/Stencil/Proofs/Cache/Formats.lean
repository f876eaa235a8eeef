import Stencil.Proofs.Cache.Transparency

set_option autoImplicit false

namespace Stencil

open Stencil.Action

namespace Memory

variable {format format' : Template.EchoFormat} {key : String → String} {store : Memory}

theorem coherent_other (coherent : store.Coherent format key)
    (storable : ∀ name source, store.sources.get? name = some source →
      Template.Storable format' name source.text)
    (same : ∀ name, (∃ program, store.Reusable key name program) →
      store.program format' name = store.program format name) : store.Coherent format' key := by
  refine ⟨storable, fun artifact program stored read => ?_⟩
  obtain ⟨source, found, current⟩ := coherent.current artifact program stored read
  refine ⟨source, found, fun fresh => ?_⟩
  have equal := same program.template ⟨program, .intro source artifact program found stored fresh read rfl⟩
  rw [(program_eq_ok _ source found program).mpr (current fresh)] at equal
  exact (program_eq_ok _ source found program).mp equal

end Memory

namespace Cache

variable {format : Template.EchoFormat} {key : String → String}

theorem answer_of_unusable (compiler : Compiler) (cache : Cache Memory) (name : String)
    (unusable : ¬ ∃ program, cache.store.Reusable compiler.key name program) :
    (ensureFresh compiler name).answer cache = cache.store.program compiler.format name := by
  have serves := ensureFresh_serves compiler cache name
  simp only [answer]
  generalize ensureFresh compiler name cache = result at serves
  cases serves with
  | missing absent => exact (Memory.program_missing name absent).symm
  | stored program counts reusable => exact absurd ⟨program, reusable⟩ unusable
  | failed source fault found _ done =>
      rw [Memory.program_of_source name source found, done]
      rfl
  | compiled source program counts found _ done => exact ((Memory.program_eq_ok name source found program).mpr done).symm

theorem answer_of_reusable (compiler : Compiler) (cache : Cache Memory) (name : String) (program : Program)
    (reusable : cache.store.Reusable compiler.key name program) :
    (ensureFresh compiler name).answer cache = .ok program := by
  have serves := ensureFresh_serves compiler cache name
  simp only [answer]
  generalize ensureFresh compiler name cache = result at serves
  cases serves with
  | missing absent =>
      obtain ⟨_, _, _, found, _, _, _, _⟩ := reusable
      cases absent.symm.trans found
  | stored other counts again =>
      obtain ⟨_, _, _, _, stored, _, read, _⟩ := reusable
      obtain ⟨_, _, _, _, stored', _, read', _⟩ := again
      obtain rfl := Option.some.inj (stored.symm.trans stored')
      exact congrArg Except.ok (Option.some.inj (read'.symm.trans read))
  | failed source fault found unusable done => exact absurd reusable (unusable program)
  | compiled source other counts found unusable done => exact absurd reusable (unusable program)

theorem answer_of_compile (compiler : Compiler) (now : Nat) (cache : Cache Memory) (name : String) (source : Source)
    (program : Program) (found : cache.store.sources.get? name = some source)
    (storable : Template.Storable compiler.format name source.text)
    (done : cache.store.program compiler.format name = .ok program) :
    (ensureFresh { compiler with now } name).answer ((compile compiler name).after cache) = .ok program := by
  have compiles := (Memory.program_eq_ok name source found program).mp done
  have reached : (compile compiler name).after cache
      = ⟨cache.store.addArtifact (compiler.key name) ⟨program.code, compiler.now⟩,
          { cache.counts with compiled := cache.counts.compiled + 1 }⟩ := by
    have same : compile compiler name cache = compileAndStore compiler name cache := rfl
    rw [after, same, compileAndStore_done compiler cache name source program found compiles]
  rw [reached]
  by_cases reusable : ∃ other, (cache.store.addArtifact (compiler.key name) ⟨program.code, compiler.now⟩).Reusable
      compiler.key name other
  · obtain ⟨other, usable⟩ := reusable
    rw [answer_of_reusable { compiler with now } _ name other usable]
    obtain ⟨_, artifact, _, _, stored, _, read, _⟩ := usable
    rw [Memory.addArtifact, Table.get_set, if_pos rfl] at stored
    obtain rfl := Option.some.inj stored
    exact congrArg Except.ok (Option.some.inj (read.symm.trans (storable.ofCode compiles)))
  · rw [answer_of_unusable { compiler with now } _ name reusable]
    exact done

/-- Over a store that engines of one format have left, an engine of another format is given what the template
compiles to under the old format if it is stored and can be used again, and what it compiles to under its own
otherwise. Where both agree on all that is stored, every render is that over a store without programs. A template
that is compiled again is of the new format. -/
theorem other_format (format format' : Template.EchoFormat) (key : String → String) (cache : Cache Memory)
    (reached : Reachable format key cache) :
    (∀ now name, (∃ program, cache.store.Reusable key name program) →
      (ensureFresh ⟨format', key, now⟩ name).answer cache = cache.store.program format name) ∧
    (∀ now name, (¬ ∃ program, cache.store.Reusable key name program) →
      (ensureFresh ⟨format', key, now⟩ name).answer cache = cache.store.program format' name) ∧
    ((∀ name source, cache.store.sources.get? name = some source → Template.Storable format' name source.text) →
      (∀ name, (∃ program, cache.store.Reusable key name program) →
        cache.store.program format' name = cache.store.program format name) →
      (∀ now name, (ensureFresh ⟨format', key, now⟩ name).answer cache = cache.store.program format' name) ∧
      ∀ now now' limits name data,
        (Renderer.render ⟨⟨format', key, now⟩, limits⟩ name data).answer cache
          = (Renderer.render ⟨⟨format', key, now'⟩, limits⟩ name data).answer cache.bare) ∧
    ∀ now now' name source program, cache.store.sources.get? name = some source →
      Template.Storable format' name source.text → cache.store.program format' name = .ok program →
      (ensureFresh ⟨format', key, now'⟩ name).answer ((compile ⟨format', key, now⟩ name).after cache) = .ok program := by
  have coherent := coherent_of_reachable cache reached
  refine ⟨fun now name usable => ?_, fun now => answer_of_unusable ⟨format', key, now⟩ cache, fun storable same => ?_,
    fun now now' name source program => answer_of_compile ⟨format', key, now⟩ now' cache name source program⟩
  · obtain ⟨program, reusable⟩ := usable
    rw [answer_of_reusable ⟨format', key, now⟩ cache name program reusable]
    exact (program_of_reusable name coherent program reusable).symm
  · have other := Memory.coherent_other coherent storable same
    refine ⟨fun now name => (ensureFresh_gives now name other).1, fun now now' limits name data => ?_⟩
    exact answer_of_agrees (render_level now now' limits name data cache cache.bare (level_bare cache other))

def plain : Template.EchoFormat := ⟨[], []⟩

def served (format : Template.EchoFormat) (text : String) : Cache Memory :=
  Operation.run format id ⟨⟨[("page", ⟨text, 1⟩)], []⟩, ⟨0, 0⟩⟩ (.ensureFresh 2 "page")

def echo : String := "\x7b\x7b $v \x7d\x7d"

def pageOver (cache : Cache Memory) : Option String :=
  (Renderer.render ⟨⟨.escaping, id, 3⟩, ⟨false, 1, 1, 1⟩⟩ "page" [("v", .string "<")]).result? cache

/-- A page that was compiled without escapes is still printed without them after escaping is switched on. -/
theorem format_without_effect :
    (ensureFresh ⟨.escaping, id, 3⟩ "page").answer (served plain echo)
      ≠ (served plain echo).store.program .escaping "page" ∧
    pageOver (served plain echo) = some "<" ∧ pageOver (served plain echo).bare = some "&lt;" := by
  refine ⟨fun same => ?_, by decide +kernel, by decide +kernel⟩
  have apart : ((ensureFresh ⟨.escaping, id, 3⟩ "page").answer (served plain echo)).toOption.map Program.code
      ≠ ((served plain echo).store.program .escaping "page").toOption.map Program.code := by
    decide +kernel
  exact apart (congrArg (fun answer => answer.toOption.map Program.code) same)

section Pages

variable (format : Template.EchoFormat) (text : String) (nodes : List Node)

theorem storable_page (short : 1 + Text.breaks text.toList < Decimal.wordLimit)
    (done : Program.compile format "page" text = .ok ⟨currentFormat, "page", nodes⟩)
    (reads : Node.EachOf Node.floatsReadBack nodes) : Template.Storable format "page" text := by
  refine ⟨short, fun program compiled => ?_⟩
  obtain rfl := Except.ok.inj (done.symm.trans compiled)
  exact reads

theorem only_page (name : String) (source : Source)
    (found : Table.get? name [("page", (⟨text, 1⟩ : Source))] = some source) :
    name = "page" ∧ source = ⟨text, 1⟩ := by
  rw [Table.get?] at found
  split at found
  · rename_i same
    exact ⟨same.symm, (Option.some.inj found).symm⟩
  · cases found

theorem reachable_served (storable : Template.Storable format "page" text) :
    Reachable format id (served format text) := by
  have started : Reachable format id ⟨⟨[("page", ⟨text, 1⟩)], []⟩, ⟨0, 0⟩⟩ := by
    refine .start _ fun name source found => ?_
    obtain ⟨rfl, rfl⟩ := only_page text name source found
    exact storable
  exact started.step _ (.ensureFresh 2 "page") trivial

end Pages

theorem compile_text (format : Template.EchoFormat) (both : format = plain ∨ format = .escaping) :
    Program.compile format "page" "text" = .ok ⟨currentFormat, "page", [.text "text"]⟩ := by
  rcases both with rfl | rfl
  · cbv
  · cbv

theorem other_format_served :
    (ensureFresh ⟨.escaping, id, 3⟩ "page").answer (served plain echo)
      = .ok ⟨currentFormat, "page", [.echo (.var "v") 1]⟩ ∧
    (ensureFresh ⟨.escaping, id, 3⟩ "none").answer (served plain echo) = .error (.templateNotFound "none" "none") ∧
    (ensureFresh ⟨.escaping, id, 3⟩ "page").answer (served plain "text")
      = .ok ⟨currentFormat, "page", [.text "text"]⟩ ∧
    (ensureFresh ⟨.escaping, id, 5⟩ "page").answer ((compile ⟨.escaping, id, 4⟩ "page").after (served plain echo))
      = .ok ⟨currentFormat, "page", [.echo (.call "e" [.var "v"]) 1]⟩ := by
  have before : Program.compile plain "page" echo = .ok ⟨currentFormat, "page", [.echo (.var "v") 1]⟩ := by cbv
  have later : Program.compile .escaping "page" echo
      = .ok ⟨currentFormat, "page", [.echo (.call "e" [.var "v"]) 1]⟩ := by
    cbv
  have storable : Template.Storable plain "page" echo :=
    storable_page plain echo _ (by decide +kernel) before ⟨⟨trivial, trivial⟩, trivial⟩
  have storable' : Template.Storable .escaping "page" echo :=
    storable_page .escaping echo _ (by decide +kernel) later ⟨⟨⟨trivial, trivial⟩, trivial⟩, trivial⟩
  have found : (served plain echo).store.sources.get? "page" = some ⟨echo, 1⟩ := by decide +kernel
  have kept : (served plain echo).store.artifacts.get? "page"
      = some ⟨Program.code ⟨currentFormat, "page", [.echo (.var "v") 1]⟩, 2⟩ := by
    decide +kernel
  obtain ⟨usable, unusable, _, compiled⟩ :=
    other_format plain .escaping id (served plain echo) (reachable_served plain echo storable)
  refine ⟨?_, ?_, ?_, ?_⟩
  · rw [usable 3 "page" ⟨_, .intro _ _ _ found kept (by decide) (storable.ofCode before) rfl⟩]
    exact (Memory.program_eq_ok "page" _ found _).mpr before
  · have absent : (served plain echo).store.sources.get? "none" = none := by decide +kernel
    rw [unusable 3 "none", Memory.program_missing "none" absent]
    rintro ⟨program, _, _, _, known, _, _, _, _⟩
    cases absent.symm.trans known
  · have text format both : Template.Storable format "page" "text" :=
      storable_page format "text" _ (by decide +kernel) (compile_text format both) ⟨trivial, trivial⟩
    have sources : (served plain "text").store.sources = [("page", ⟨"text", 1⟩)] := by decide +kernel
    have alone name source (known : (served plain "text").store.sources.get? name = some source) :=
      only_page "text" name source (sources ▸ known)
    obtain ⟨_, _, same, _⟩ :=
      other_format plain .escaping id (served plain "text") (reachable_served plain "text" (text plain (.inl rfl)))
    have fresh := (same ?_ ?_).1 3 "page"
    · rw [fresh]
      exact (Memory.program_eq_ok "page" ⟨"text", 1⟩ (by rw [sources]; rfl) _).mpr (compile_text _ (.inr rfl))
    · intro name source known
      obtain ⟨rfl, rfl⟩ := alone name source known
      exact text .escaping (.inr rfl)
    · rintro name ⟨program, source, _, _, known, _, _, _, _⟩
      rw [Memory.program_of_source name source known, Memory.program_of_source name source known]
      obtain ⟨rfl, rfl⟩ := alone name source known
      rw [compile_text _ (.inl rfl), compile_text _ (.inr rfl)]
  · refine compiled 4 5 "page" _ _ found storable' ?_
    exact (Memory.program_eq_ok "page" _ found _).mpr later

end Cache

end Stencil
