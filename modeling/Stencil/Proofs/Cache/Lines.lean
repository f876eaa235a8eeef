import Stencil.Proofs.Cache.Transparency
import Stencil.Proofs.Program.Restored
import Stencil.Proofs.Program.Spots
import Stencil.Proofs.Render.Blame

set_option autoImplicit false

namespace Stencil

open Stencil.Action Template

namespace Memory

structure Blank (store : Memory) : Prop where
  artifacts : store.artifacts = []
  short : ∀ name source, store.sources.get? name = some source → 1 + Text.breaks source.text.toList < Decimal.wordLimit

inductive Offers (format : EchoFormat) (store : Memory) (name : String) : Program → Prop where
  | intro (source : Source) (written served : Program) (found : store.sources.get? name = some source)
      (done : Program.compile format name source.text = .ok written)
      (same : served = written ∨ Program.ofCode? written.code = some served) : Offers format store name served

inductive Tells (format : EchoFormat) (store : Memory) : Culprit → ViewError → Site → Prop where
  | intro {template : String} {place : Nat} {vars : Fields} {e : ViewError} (source : Source) (pieces : List Piece)
      (spot : Spot) (expression : Expr) (found : store.sources.get? template = some source)
      (read : Template.pieces format source.text.toList = .ok pieces) (stands : (spots [] pieces)[place]? = some spot)
      (same : expression = spot.expression ∨ spot.expression.reread? = some expression)
      (fails : Site.Fails ⟨template, spot.teller.line⟩ vars expression e)
      (piece : spot.piece.Stands 1 source.text.toList) (teller : spot.teller.Stands 1 source.text.toList)
      (own : spot.piece.isFurther = false → spot.teller = spot.piece)
      (further : spot.piece.isFurther = true → spot.teller.IsDirective .openIf) :
      Tells format store ⟨template, place, vars⟩ e ⟨template, spot.teller.line⟩

end Memory

namespace Cache

variable {format : EchoFormat} {key : String → String}

structure Follows (format : EchoFormat) (key : String → String) (store : Memory) (cache : Cache Memory) : Prop where
  sources : cache.store.sources = store.sources
  offers : ∀ name program, cache.store.Reusable key name program → store.Offers format name program

theorem evaluated_ofFault (name : String) (fault : Fault) : (ViewError.ofFault name fault).evaluated? = none := by
  rw [ViewError.ofFault]
  cases fault.kind <;> rfl

theorem template_ofCode (program other : Program) (read : Program.ofCode? program.code = some other) :
    other.template = program.template := by
  rw [Program.ofCode_code, Option.bind_eq_bind, Option.bind_eq_some_iff] at read
  obtain ⟨nodes, again, read⟩ := read
  split at read
  · obtain rfl := Option.some.inj read
    rfl
  · cases read

theorem follows_write (store : Memory) (cache : Cache Memory) (follows : Follows format key store cache) (name : String)
    (source : Source) (program : Program) (now : Nat) (counts : Counts)
    (found : cache.store.sources.get? name = some source)
    (done : Program.compile format name source.text = .ok program) :
    Follows format key store ⟨cache.store.addArtifact (key name) ⟨program.code, now⟩, counts⟩ := by
  refine ⟨follows.sources, fun other served reusable => ?_⟩
  obtain ⟨current, artifact, _, known, stored, fresh, read, named⟩ := reusable
  simp only [Memory.addArtifact, Table.get_set] at stored
  by_cases same : key other = key name
  · rw [if_pos same] at stored
    obtain rfl := Option.some.inj stored
    have written := (Program.compile_parts format name source.text program done).2.1
    obtain rfl : other = name := by rw [← named, template_ofCode program served read, written]
    rw [follows.sources] at found
    exact .intro source program served found done (.inr read)
  · rw [if_neg same] at stored
    exact follows.offers other served (.intro current artifact served known stored fresh read named)

theorem guards_offers (store : Memory) (now : Nat) (name : String) :
    Guards (Follows format key store) (ensureFresh ⟨format, key, now⟩ name) (store.Offers format name)
      fun e => e.evaluated? = none := by
  intro cache follows
  have serves := ensureFresh_serves ⟨format, key, now⟩ cache name
  generalize ensureFresh ⟨format, key, now⟩ name cache = result at serves
  cases serves with
  | missing absent => exact ⟨rfl, follows⟩
  | failed source fault found unusable done => exact ⟨evaluated_ofFault name fault, follows⟩
  | stored program counts reusable => exact ⟨follows.offers name program reusable, follows.sources, follows.offers⟩
  | compiled source program counts found unusable done =>
      refine ⟨?_, follows_write store cache follows name source program now counts found done⟩
      rw [follows.sources] at found
      exact .intro source program program found done (.inl rfl)

theorem follows_self (cache : Cache Memory) (clean : cache.store.Blank ∨ Reachable format key cache) :
    Follows format key cache.store cache := by
  refine ⟨rfl, fun name program reusable => ?_⟩
  rcases clean with blank | reached
  · obtain ⟨_, _, _, _, stored, _, _, _⟩ := reusable
    rw [blank.artifacts] at stored
    cases stored
  · have done := program_of_reusable name (coherent_of_reachable cache reached) program reusable
    obtain ⟨source, _, _, found, _, _, _, _⟩ := reusable
    exact .intro source program program found ((Memory.program_eq_ok name source found program).mp done) (.inl rfl)

theorem short_of_clean (cache : Cache Memory) (clean : cache.store.Blank ∨ Reachable format key cache) (name : String)
    (source : Source) (found : cache.store.sources.get? name = some source) :
    1 + Text.breaks source.text.toList < Decimal.wordLimit := by
  rcases clean with blank | reached
  · exact blank.short name source found
  · exact ((coherent_of_reachable cache reached).storable name source found).short

section Offered

variable {store : Memory} {name : String} {program : Program} (offers : store.Offers format name program)
  (short : ∀ source, store.sources.get? name = some source → 1 + Text.breaks source.text.toList < Decimal.wordLimit)

include offers short

theorem spot_of_offers (place : Nat) (mention : Mention) (stands : program.mentions[place]? = some mention) :
    ∃ source pieces spot, store.sources.get? name = some source ∧
      Template.pieces format source.text.toList = .ok pieces ∧ (spots [] pieces)[place]? = some spot ∧
      spot.Placed [] pieces ∧ mention.line = spot.teller.line ∧
      (mention.expression = spot.expression ∨ spot.expression.reread? = some mention.expression) := by
  obtain ⟨source, written, _, found, done, same⟩ := offers
  have wellFormed := Program.wellFormed_compile format name source.text written (short source found) done
  rw [Program.compile] at done
  obtain ⟨pieces, read, assembled⟩ := (bind_eq_ok _ _ _).mp done
  obtain ⟨all, placed⟩ := spots_assemble name pieces written assembled
  have spotted (before : Mention) (stands : written.mentions[place]? = some before) :
      ∃ spot, (spots [] pieces)[place]? = some spot ∧ spot.Placed [] pieces ∧ spot.mention = before := by
    rw [all, List.getElem?_map, Option.map_eq_some_iff] at stands
    obtain ⟨spot, at_place, same⟩ := stands
    exact ⟨spot, at_place, placed spot (List.mem_of_getElem? at_place), same⟩
  rcases same with rfl | again
  · obtain ⟨spot, at_place, inside, rfl⟩ := spotted mention stands
    exact ⟨source, pieces, spot, found, read, at_place, inside, rfl, Or.inl rfl⟩
  · have restored := Program.restored_ofCode written program wellFormed again
    obtain ⟨before, stands, kept⟩ := restored_getElem _ _ restored place mention stands
    obtain ⟨spot, at_place, inside, rfl⟩ := spotted before stands
    exact ⟨source, pieces, spot, found, read, at_place, inside, kept.line, Or.inr kept.expression⟩

theorem tells_of_offers (place : Nat) (vars : Fields) (mention : Mention) (e : ViewError)
    (stands : program.mentions[place]? = some mention)
    (fails : Site.Fails ⟨name, mention.line⟩ vars mention.expression e) :
    store.Tells format ⟨name, place, vars⟩ e ⟨name, mention.line⟩ := by
  obtain ⟨source, pieces, spot, found, read, spotted, placed, line, same⟩ := spot_of_offers offers short place mention stands
  have shows (piece : Piece) (inside : piece ∈ pieces) (visible : ¬ piece.IsText) : piece.Stands 1 source.text.toList := by
    rcases stands_pieces format source.text.toList pieces read piece inside with stands | ⟨_, _, text, _⟩
    · exact stands
    · exact absurd ⟨_, _, text⟩ visible
  have visible : ¬ spot.teller.IsText := by
    rintro ⟨content, line, text⟩
    cases further : spot.piece.isFurther with
    | false => exact placed.visible ⟨content, line, (placed.own further).symm.trans text⟩
    | true =>
        obtain ⟨args, place, opener⟩ := placed.further further
        cases text.symm.trans opener
  rw [line] at fails ⊢
  exact .intro source pieces spot mention.expression found read spotted same fails (shows _ placed.piece placed.visible)
    (shows _ placed.teller visible) placed.own placed.further

end Offered

/-- If a render fails because an expression fails, its error names the template and a line. This is the line on which the
piece with the expression starts in the template, or the line of the `@if` above if the piece is an `@elseif`. All other
renders meet no expression that fails. -/
theorem render_tells (format : EchoFormat) (key : String → String) (now : Nat) (limits : Limits) (name : String)
    (data : Fields) (cache : Cache Memory) (clean : cache.store.Blank ∨ Reachable format key cache) :
    let renderer : Renderer := ⟨⟨format, key, now⟩, limits⟩
    match renderer.render name data cache with
    | .ok _ _ => renderer.culprit data name cache = none
    | .error e _ =>
        match e.evaluated? with
        | none => renderer.culprit data name cache = none
        | some site => ∃ culprit, renderer.culprit data name cache = some culprit ∧
            cache.store.Tells format culprit e site := by
  intro renderer
  have explained := renderer.explained_render (guards_offers cache.store now) data name cache
    (follows_self cache clean)
  generalize renderer.render name data cache = result at explained
  cases result with
  | ok text after => exact explained
  | error e after =>
      dsimp only at explained ⊢
      cases told : e.evaluated? with
      | none =>
          rw [told] at explained
          exact explained
      | some site =>
          rw [told] at explained
          obtain ⟨⟨template, place, vars⟩, program, mention, blamed, offers, stands, rfl, fails⟩ := explained
          exact ⟨_, blamed, tells_of_offers offers (short_of_clean cache clean template) place vars mention e stands fails⟩

def small : Renderer := ⟨⟨.escaping, id, 1⟩, ⟨false, 1, 1, 1⟩⟩

def echoed : Cache Memory := ⟨Memory.empty.addSource "page" ⟨"a\n\x7b\x7b $x \x7d\x7d", 1⟩, ⟨0, 0⟩⟩

theorem render_tells_echo :
    ∃ e after site culprit, small.render "page" [] echoed = .error e after ∧ e.evaluated? = some site ∧ site.line = 2 ∧
      small.culprit [] "page" echoed = some culprit ∧ echoed.store.Tells .escaping culprit e site := by
  have blank : echoed.store.Blank := by
    refine ⟨rfl, fun name source found => ?_⟩
    simp only [echoed, Memory.addSource, Memory.empty, Table.get_set] at found
    by_cases same : name = "page"
    · rw [if_pos same] at found
      obtain rfl := Option.some.inj found
      decide +kernel
    · rw [if_neg same] at found
      cases found
  have told : (((small.render "page" []).failure? echoed).bind ViewError.evaluated?).map Site.line = some 2 := by
    decide +kernel
  obtain ⟨site, evaluated, line⟩ := Option.map_eq_some_iff.mp told
  obtain ⟨e, failed, evaluated⟩ := Option.bind_eq_some_iff.mp evaluated
  obtain ⟨after, done⟩ := error_of_failure _ _ e failed
  have tells := render_tells .escaping id 1 ⟨false, 1, 1, 1⟩ "page" [] echoed (.inl blank)
  change match small.render "page" [] echoed with | .ok _ _ => _ | .error e _ => _ at tells
  rw [done] at tells
  dsimp only at tells
  rw [evaluated] at tells
  obtain ⟨culprit, blamed, tells⟩ := tells
  exact ⟨e, after, site, culprit, done, evaluated, line, blamed, tells⟩

def chained : Cache Memory := ⟨Memory.empty.addSource "page" ⟨"@if(false)\n@elseif($x)\n@endif", 1⟩, ⟨0, 0⟩⟩

-- The expression that fails is the second one, and it stands on the second line.
theorem elseif_tells_opener :
    ((small.render "page" []).failure? chained).map ViewError.message = some "Undefined variable '$x' in 'page' at line 1" ∧
    (small.culprit [] "page" chained).map Culprit.place = some 1 ∧
    ((Template.pieces .escaping "@if(false)\n@elseif($x)\n@endif".toList).toOption.map fun pieces =>
      (spots [] pieces).map fun spot => spot.piece.line) = some [1, 2] := by
  refine ⟨by decide +kernel, by decide +kernel, by decide +kernel⟩

end Cache

end Stencil
