import Stencil.Proofs.Cache.Guards
import Stencil.Proofs.Cache.Transparency
import Stencil.Proofs.Render.Tagless

set_option autoImplicit false

namespace Stencil

open Stencil.Action Text

theorem Action.ok_of_answer {σ α : Type} (action : Action σ α) (s : σ) (a : α)
    (answered : action.answer s = .ok a) : ∃ after, action s = .ok a after := by
  rw [answer] at answered
  split at answered
  · rename_i b after done
    obtain rfl := Except.ok.inj answered
    exact ⟨after, done⟩
  · cases answered

theorem Action.after_of_guards {σ α : Type} {P : σ → Prop} {A : α → Prop} {E : ViewError → Prop}
    (action : Action σ α) (guards : Guards P action A E) (s : σ) (holds : P s) : P (action.after s) := by
  have ended := guards s holds
  rw [after]
  cases done : action s with
  | ok a s' =>
      rw [done] at ended
      exact ended.2
  | error e s' =>
      rw [done] at ended
      exact ended.2

namespace Memory

structure Contained (store : Memory) : Prop where
  sources : ∀ name source, store.sources.get? name = some source → Template.Contained name source.text
  programs : ∀ key artifact program, store.artifacts.get? key = some artifact →
    Program.ofCode? artifact.code = some program → Node.EachOf Node.tagless program.nodes

variable {store : Memory}

theorem contained_bare (bare : store.artifacts = []) (sources : ∀ name source,
    store.sources.get? name = some source → Template.Contained name source.text) : store.Contained := by
  refine ⟨sources, fun key artifact program found => ?_⟩
  rw [bare] at found
  cases found

theorem contained_addSource (contained : store.Contained) (name : String) (source : Source)
    (added : Template.Contained name source.text) : (store.addSource name source).Contained := by
  refine ⟨fun other found => ?_, contained.programs⟩
  simp only [addSource, Table.get_set]
  by_cases same : other = name
  · rw [if_pos same, same]
    intro inserted
    obtain rfl := Option.some.inj inserted
    exact added
  · rw [if_neg same]
    exact contained.sources other found

theorem contained_touchSource (contained : store.Contained) (name : String) (modified : Nat) :
    ((store.touchSource name modified).getD store).Contained := by
  cases found : store.sources.get? name with
  | none => simpa only [touchSource, found, Option.map_none, Option.getD_none] using contained
  | some source =>
      simp only [touchSource, found, Option.map_some, Option.getD_some]
      exact contained_addSource contained name _ (contained.sources name source found)

theorem contained_write (contained : store.Contained) (key : String) (now : Nat) (program : Program)
    (safe : Node.EachOf Node.safe program.nodes) : (store.addArtifact key ⟨program.code, now⟩).Contained := by
  refine ⟨contained.sources, fun other artifact program' stored read => ?_⟩
  simp only [addArtifact, Table.get_set] at stored
  by_cases same : other = key
  · rw [if_pos same] at stored
    obtain rfl := Option.some.inj stored
    exact program.tagless_ofCode program' safe read
  · rw [if_neg same] at stored
    exact contained.programs other artifact program' stored read

theorem contained_guarded :
    Store.Guarded .escaping Contained (fun program => Node.EachOf Node.tagless program.nodes) fun _ => True where
  sourceTime _ _ _ _ := trivial
  artifact _ _ _ _ := trivial
  source _ _ _ _ := trivial
  fault _ _ := trivial
  found store key artifact program contained asked read :=
    contained.programs key artifact program (Except.ok.inj asked) read
  compiled store name source program contained asked done := by
    have template : Template.Contained name source.text := by
      simp only [Store.source, Memory.source] at asked
      split at asked
      · rename_i found known
        obtain rfl := Except.ok.inj asked
        exact contained.sources name found known
      · cases asked
    have safe := Program.safe_of_contained template program done
    refine ⟨program.tagless_of_safe safe, fun now key store contained => ⟨trivial, ?_⟩⟩
    exact contained_write contained key now program safe
  lock _ _ _ contained := ⟨trivial, contained⟩

end Memory

namespace Cache

open Memory

variable (key : String → String)

theorem contained_render (now : Nat) (limits : Limits) (name : String) (data : Fields) (cache : Cache Memory)
    (contained : cache.store.Contained) :
    ((Renderer.render ⟨⟨.escaping, key, now⟩, limits⟩ name data).after cache).store.Contained := by
  have fresh : ∀ name, Alike (fun s t : Cache Memory => s = t ∧ s.store.Contained)
      (ensureFresh ⟨.escaping, key, now⟩ name) (ensureFresh ⟨.escaping, key, now⟩ name) := by
    rintro name cache _ ⟨rfl, contained⟩
    have ended := guards_ensureFresh contained_guarded key now name cache contained
    cases done : ensureFresh ⟨.escaping, key, now⟩ name cache with
    | ok _ _ =>
        rw [done] at ended
        exact .ok ⟨rfl, ended.2⟩
    | error _ _ =>
        rw [done] at ended
        exact .error ⟨rfl, ended.2⟩
  exact (after_of_agrees (Renderer.alike_render _ _ limits fresh name data cache cache ⟨rfl, contained⟩)).2

theorem contained_run (cache : Cache Memory) (operation : Operation) (contained : cache.store.Contained)
    (added : ∀ name source, operation = .addSource name source → Template.Contained name source.text) :
    (operation.run .escaping key cache).store.Contained := by
  cases operation with
  | addSource name source => exact Memory.contained_addSource contained name source (added name source rfl)
  | touchSource name modified => exact Memory.contained_touchSource contained name modified
  | ensureFresh now name =>
      exact after_of_guards _ (guards_ensureFresh contained_guarded key now name) cache contained
  | compile now name => exact after_of_guards _ (guards_compile contained_guarded key now name) cache contained
  | render now limits name data => exact contained_render key now limits name data cache contained
  | clear => exact Memory.contained_bare rfl contained.sources
  | reopen => exact contained

theorem contained_runs (operations : List Operation) (cache : Cache Memory) (contained : cache.store.Contained)
    (added : ∀ name source, .addSource name source ∈ operations → Template.Contained name source.text) :
    (operations.foldl (Operation.run .escaping key) cache).store.Contained := by
  induction operations generalizing cache with
  | nil => exact contained
  | cons operation rest ih =>
      refine ih (operation.run .escaping key cache) ?_ fun name source inside => ?_
      · refine contained_run key cache operation contained fun name source same => ?_
        exact added name source (same ▸ List.mem_cons_self ..)
      · exact added name source (List.mem_cons_of_mem _ inside)

/-- Whatever has been done to a cache, a render over contained templates prints no tag. A template that is
only an echo, or a yield without a block, prints one for some data unless its expression never does. -/
theorem tagless_render :
    (∀ (operations : List Operation) now limits name data text after,
      (∀ name source, .addSource name source ∈ operations → Template.Contained name source.text) →
      Renderer.render ⟨⟨.escaping, key, now⟩, limits⟩ name data
        (operations.foldl (Operation.run .escaping key) ⟨.empty, ⟨0, 0⟩⟩) = .ok text after →
      Tagless text) ∧
    ∀ now limits name (cache after : Cache Memory) program e block line, ¬ e.Tagless →
      ensureFresh ⟨.escaping, key, now⟩ name cache = .ok program after →
      (program.nodes = [.echo e line] ∨ program.nodes = [.yield (.literal (.string block)) (some e) line]) →
      ∃ data text, Renderer.render ⟨⟨.escaping, key, now⟩, limits⟩ name data cache = .ok text after ∧
        ¬ Tagless text := by
  refine ⟨fun operations now limits name data text after added done => ?_, ?_⟩
  · have empty : Memory.empty.Contained := by
      refine contained_bare rfl fun name source found => ?_
      cases found
    have contained := contained_runs key operations ⟨.empty, ⟨0, 0⟩⟩ empty added
    have fresh name := ensures_of_guards _ (guards_ensureFresh contained_guarded key now name)
    have ended := Renderer.clean_render ⟨⟨.escaping, key, now⟩, limits⟩ fresh name data _ contained
    rw [done] at ended
    cases ended with
    | ok printed => exact printed.1
  · intro now limits name cache after program e block line tags fresh alone
    exact Renderer.tag_of_node _ name cache after program e block line tags fresh alone

def escapedPage : String := "\x7b\x7b $v \x7d\x7d@yield('t', 'none')"

theorem contained_escapedPage : Template.Contained "page" escapedPage where
  tagless := by decide +kernel
  rawless before after same := by
    have absent : ¬ Template.EchoKind.raw.opener <:+: escapedPage.toList := by decide +kernel
    exact absent ⟨before, after, same.symm⟩
  echoes pieces source expression line read inside := by
    have found : Template.pieces .escaping escapedPage.toList = .ok
        [.echo "\x7b\x7b $v \x7d\x7d".toList "e($v)".toList 1, .directive .yield (some "('t', 'none')".toList) 1] := by
      cbv
    obtain rfl := Except.ok.inj (found.symm.trans read)
    simp only [List.mem_cons, List.not_mem_nil, or_false, reduceCtorEq] at inside
    obtain ⟨_, rfl, _⟩ := Template.Piece.echo.inj inside
    refine .inl fun tokens lexed => ?_
    have split : tokenize "e($v)".toList
        = .ok [⟨.word "e", 0⟩, ⟨.symbol .openParen, 1⟩, ⟨.variableName "v", 2⟩, ⟨.symbol .closeParen, 4⟩] := by
      cbv
    obtain rfl := Except.ok.inj (split.symm.trans lexed)
    unfold Enclosed
    decide
  defaults program done := by
    have found : Program.compile .escaping "page" escapedPage = .ok ⟨currentFormat, "page",
        [.echo (.call "e" [.var "v"]) 1, .yield (.literal (.string "t")) (some (.literal (.string "none"))) 1]⟩ := by
      cbv
    obtain rfl := Except.ok.inj (found.symm.trans done)
    refine ⟨⟨trivial, trivial⟩, ⟨trivial, fun e inside => ?_, trivial⟩, trivial⟩
    obtain rfl := Option.some.inj inside
    exact Expr.safe_string "none" (by decide)

def engine : Renderer := ⟨⟨.escaping, fun name => name, 1⟩, ⟨false, 2, 2, 10⟩⟩

def withPage (text : String) : Cache Memory :=
  [Operation.addSource "page" ⟨text, 1⟩].foldl (Operation.run .escaping fun name => name) ⟨.empty, ⟨0, 0⟩⟩

def pageText (text : String) (data : Fields) : Option String :=
  ((engine.render "page" data).answer (withPage text)).toOption

theorem ok_of_pageText (text : String) (data : Fields) (printed : String) (found : pageText text data = some printed) :
    ∃ after, engine.render "page" data (withPage text) = .ok printed after := by
  refine ok_of_answer _ _ _ ?_
  rw [pageText] at found
  cases rendered : (engine.render "page" data).answer (withPage text) with
  | ok _ =>
      rw [rendered] at found
      rw [Option.some.inj found]
  | error _ =>
      rw [rendered] at found
      cases found

theorem tagless_render_page :
    (pageText escapedPage [("v", .string "<b>")] = some "&lt;b&gt;none" ∧ Tagless "&lt;b&gt;none") ∧
    ∃ data text, pageText "@yield('t', $v)" data = some text ∧ ¬ Tagless text := by
  obtain ⟨escaped, tags⟩ := tagless_render fun name => name
  refine ⟨?_, ?_⟩
  · have rendered : pageText escapedPage [("v", .string "<b>")] = some "&lt;b&gt;none" := by decide +kernel
    obtain ⟨after, done⟩ := ok_of_pageText _ _ _ rendered
    refine ⟨rendered, escaped [.addSource "page" ⟨escapedPage, 1⟩] _ _ _ _ _ _ (fun name source inside => ?_) done⟩
    obtain ⟨rfl, rfl⟩ := Operation.addSource.inj (List.mem_singleton.mp inside)
    exact contained_escapedPage
  · have compiled : (ensureFresh engine.compiler "page").answer (withPage "@yield('t', $v)")
        = .ok ⟨currentFormat, "page", [.yield (.literal (.string "t")) (some (.var "v")) 1]⟩ := by cbv
    obtain ⟨after, fresh⟩ := ok_of_answer _ _ _ compiled
    have prints : ¬ (Expr.var "v").Tagless := by
      intro tagless
      have plain := tagless [("v", .string "<")] (.string "<") (by cbv)
      exact absurd plain (by decide)
    obtain ⟨data, text, done, tag⟩ := tags 1 engine.limits "page" _ after _ _ "t" 1 prints fresh (.inr rfl)
    have rendered : engine.render "page" data (withPage "@yield('t', $v)") = .ok text after := done
    refine ⟨data, text, ?_, tag⟩
    rw [pageText, answer, rendered]
    rfl

structure Prints (page : String) (data : Fields) (printed : String) : Prop where
  tagless : Tagless page
  rawless : ¬ Template.EchoKind.raw.opener <:+: page.toList
  rendered : pageText page data = some printed

theorem tag_from_data :
    Prints "\x7b\x7b\x7b $a) + ($b \x7d\x7d\x7d" [("a", .string ""), ("b", .string "<script>")] "<script>" ∧
      Prints "\x7b\x7b $a) + ($b \x7d\x7d" [("a", .string ""), ("b", .string "<script>")] "<script>" ∧
      Prints "@yield('t', $v)" [("v", .string "<script>")] "<script>" ∧ ¬ Tagless "<script>" := by
  refine ⟨⟨?_, ?_, ?_⟩, ⟨?_, ?_, ?_⟩, ⟨?_, ?_, ?_⟩, ?_⟩
  all_goals decide +kernel

end Cache

end Stencil
