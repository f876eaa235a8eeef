import Stencil.Proofs.Cache.Interchange
import Stencil.Proofs.Cache.Transparency
import Stencil.Proofs.Render.Comments

set_option autoImplicit false

namespace Stencil

open Stencil.Action Template Comparison

def Program.Akin (program other : Program) : Prop := program.muted = other.muted

structure Artifact.Akin (artifact other : Artifact) : Prop where
  modified : artifact.modified = other.modified
  code : (Program.ofCode? artifact.code).map Program.muted = (Program.ofCode? other.code).map Program.muted

structure Source.Akin (format : EchoFormat) (name : String) (source other : Source) : Prop where
  modified : source.modified = other.modified
  text : (Program.compile format name source.text).map Program.muted
    = (Program.compile format name other.text).map Program.muted

theorem Artifact.akin_of_programs (program other : Program) (akin : program.Akin other) (now : Nat) :
    Artifact.Akin ⟨program.code, now⟩ ⟨other.code, now⟩ where
  modified := rfl
  code := by rw [← Program.ofCode_muted, ← Program.ofCode_muted, akin]

section Stores

variable {σ τ : Type} (R : σ → τ → Prop)

abbrev Comparison.aside : Comparison σ τ := exchanged R Eq fun _ => False

structure Store.Twins [Store σ] [Store τ] (format : EchoFormat) (key : String → String) : Prop where
  source : ∀ s t name, R s t → (aside R).Answers (Source.Akin format name) (Store.source s name) (Store.source t name)
  sourceTime : ∀ s t name, R s t → (aside R).Answers Eq (Store.sourceTime s name) (Store.sourceTime t name)
  artifact : ∀ s t name, R s t →
    (aside R).Answers (Option.Rel Artifact.Akin) (Store.artifact s (key name)) (Store.artifact t (key name))
  write : ∀ now name code other, Artifact.Akin ⟨code, now⟩ ⟨other, now⟩ →
    (aside R).Follows R Eq (Store.write now (key name) code) (Store.write now (key name) other)
  lock : ∀ now name, (aside R).Follows R Eq (Store.lock now (key name)) (Store.lock now (key name))

namespace Cache

variable {R} [Store σ] [Store τ] {format : EchoFormat} {key : String → String} (twins : Store.Twins R format key)
  (now : Nat) (name : String)

include twins

theorem akin_stored : (aside R).Follows (Alongside R) (Option.Rel Program.Akin)
    (stored? ⟨format, key, now⟩ name : Action (Cache σ) _) (stored? ⟨format, key, now⟩ name) := by
  refine follows_bind _ _ _ _ (follows_ask _ _ fun s t => twins.sourceTime s t name) fun modified _ same => ?_
  obtain rfl := same
  refine follows_bind _ _ _ _ (follows_ask _ _ fun s t => twins.artifact s t name) fun found other akin => ?_
  have nothing : (aside R).Follows (Alongside R) (Option.Rel Program.Akin)
      (pure none : Action (Cache σ) (Option Program)) (pure none) := follows_pure .none
  cases akin with
  | none => exact nothing
  | @some artifact other akin =>
      obtain ⟨code, stored⟩ := artifact
      obtain ⟨code', stored'⟩ := other
      obtain ⟨rfl, read⟩ := akin
      dsimp only at read ⊢
      by_cases old : stored < modified
      · simp only [old, if_true]
        exact nothing
      · simp only [old, if_false]
        cases first : Program.ofCode? code with
        | none =>
            rw [first] at read
            rw [Option.map_eq_none_iff.mp read.symm]
            exact nothing
        | some program =>
            rw [first] at read
            obtain ⟨other, second, akin⟩ := Option.map_eq_some_iff.mp read.symm
            have template : other.template = program.template := (congrArg Program.template akin :)
            simp only [second, template]
            by_cases named : program.template = name
            · simp only [named, if_true]
              exact follows_bind _ _ _ _ (follows_count _) fun _ _ _ => follows_pure (.some akin.symm)
            · simp only [named, if_false]
              exact nothing

theorem akin_compileAndStore : (aside R).Follows (Alongside R) Program.Akin
    (compileAndStore ⟨format, key, now⟩ name : Action (Cache σ) _) (compileAndStore ⟨format, key, now⟩ name) := by
  refine follows_bind _ _ _ _ (follows_ask _ _ fun s t => twins.source s t name) fun source other akin => ?_
  have text := akin.text
  dsimp only
  cases first : Program.compile format name source.text with
  | error fault =>
      rw [first] at text
      cases second : Program.compile format name other.text with
      | ok program =>
          rw [second] at text
          cases text
      | error fault' =>
          rw [second] at text
          obtain rfl := Except.error.inj text
          exact follows_throw rfl
  | ok program =>
      rw [first] at text
      cases second : Program.compile format name other.text with
      | error fault =>
          rw [second] at text
          cases text
      | ok program' =>
          rw [second] at text
          have akin : program.Akin program' := Except.ok.inj text
          refine follows_bind _ _ _ _ (follows_inStore _ _
            (twins.write now name _ _ (Artifact.akin_of_programs program program' akin now))) fun _ _ _ => ?_
          exact follows_bind _ _ _ _ (follows_count _) fun _ _ _ => follows_pure akin

theorem akin_ensureFresh : (aside R).Follows (Alongside R) Program.Akin
    (ensureFresh ⟨format, key, now⟩ name : Action (Cache σ) _) (ensureFresh ⟨format, key, now⟩ name) := by
  refine follows_bind _ _ _ _ (akin_stored twins now name) fun found _ akin => ?_
  cases akin with
  | some akin => exact follows_pure akin
  | none =>
      refine follows_bind _ _ _ _ (follows_inStore _ _ (twins.lock now name)) fun _ _ _ => ?_
      refine follows_bind _ _ _ _ (akin_stored twins now name) fun again _ akin => ?_
      cases akin with
      | some akin => exact follows_pure akin
      | none => exact akin_compileAndStore twins now name

theorem follows_muting : (aside R).Follows (Alongside R) (aside R).programs
    (Renderer.muting (ensureFresh ⟨format, key, now⟩ : String → Action (Cache σ) _) name)
    (Renderer.muting (ensureFresh ⟨format, key, now⟩) name) := by
  intro s t alongside
  have meets := akin_ensureFresh twins now name s t alongside
  simp only [Renderer.muting, Functor.map, EStateM.map]
  generalize ensureFresh ⟨format, key, now⟩ name s = first at meets
  generalize ensureFresh ⟨format, key, now⟩ name t = second at meets
  cases meets with
  | ok akin related => exact .ok ⟨akin, fun _ _ => trivial⟩ related
  | error same related => exact .error same related
  | excused excuse => exact excuse.elim

theorem render_twins (limits : Limits) (data : Fields) (s : Cache σ) (t : Cache τ) (alongside : Alongside R s t) :
    (Renderer.render ⟨⟨format, key, now⟩, limits⟩ name data).answer s
      = (Renderer.render ⟨⟨format, key, now⟩, limits⟩ name data).answer t := by
  have fair : (aside R).Fair limits limits :=
    { error_self := fun _ => rfl
      evaluate := fun site vars _ e same _ => by
        obtain rfl := same
        exact answers_self _ fun _ => rfl
      insert := fun name value _ _ same => congrArg (Fields.insert name value) same
      limits := .inl rfl }
  have rendered := follows_renderOver fair _ _ (follows_muting twins now) name data data rfl s t alongside
  rw [Renderer.renderOver_muting, Renderer.renderOver_muting] at rendered
  rw [Renderer.render_over, Renderer.render_over, answer, answer]
  generalize Renderer.renderOver limits (ensureFresh ⟨format, key, now⟩) name data s = first at rendered
  generalize Renderer.renderOver limits (ensureFresh ⟨format, key, now⟩) name data t = second at rendered
  cases rendered with
  | ok same _ => exact congrArg Except.ok same
  | error same _ => exact congrArg Except.error same
  | excused excuse => exact excuse.elim

end Cache

end Stores

namespace Memory

structure Akin (format : EchoFormat) (store other : Memory) : Prop where
  sources : ∀ name, Option.Rel (Source.Akin format name) (store.sources.get? name) (other.sources.get? name)
  artifacts : ∀ key, Option.Rel Artifact.Akin (store.artifacts.get? key) (other.artifacts.get? key)

variable {format : EchoFormat}

theorem akin_source (store other : Memory) (akin : store.Akin format other) (name : String) :
    (aside (Memory.Akin format)).Answers (Source.Akin format name) (store.source name) (other.source name) := by
  have sources := akin.sources name
  rw [source, source]
  generalize store.sources.get? name = first at sources
  generalize other.sources.get? name = second at sources
  cases sources with
  | none => exact .error rfl
  | some akin => exact .ok akin

theorem twins (key : String → String) : Store.Twins (Memory.Akin format) format key where
  source s t name akin := akin_source s t akin name
  sourceTime s t name akin := answers_map _ _ (akin_source s t akin name) fun _ _ akin => akin.modified
  artifact s t name akin := .ok (akin.artifacts (key name))
  write now name code other akin s t stores := by
    refine .ok rfl ⟨stores.sources, fun place => ?_⟩
    rw [Table.get_set, Table.get_set]
    split
    · exact .some akin
    · exact stores.artifacts place
  lock now name s t stores := .ok rfl stores

theorem rel_self {α : Type} {r : α → α → Prop} (self : ∀ a, r a a) (found : Option α) : Option.Rel r found found := by
  cases found with
  | none => exact .none
  | some a => exact .some (self a)

theorem akin_addSource (store : Memory) (name : String) (source other : Source) (akin : source.Akin format name other) :
    (store.addSource name source).Akin format (store.addSource name other) where
  sources asked := by
    rw [addSource, addSource, Table.get_set, Table.get_set]
    by_cases same : asked = name
    · rw [if_pos same, if_pos same, same]
      exact .some akin
    · rw [if_neg same, if_neg same]
      exact rel_self (fun _ => ⟨rfl, rfl⟩) _
  artifacts place := rel_self (fun _ => ⟨rfl, rfl⟩) _

end Memory

def Cache.withComment (cache : Cache Memory) (template : String) (modified : Nat) (before comment after : List Char) :
    Cache Memory :=
  { cache with store := cache.store.addSource template ⟨String.ofList (commented before comment after), modified⟩ }

/-- Two comments with as many line breaks, neither of which has the mark in it that ends a comment, can stand in place of
each other. Whatever they look like, and whatever templates and stored programs there are besides, a render of any
template has the same text with both of them, or fails with the same error. -/
theorem Cache.render_commented (format : EchoFormat) (key : String → String) (now : Nat) (limits : Limits)
    (cache : Cache Memory) (template : String) (modified : Nat) (before comment comment' after : List Char)
    (ended : CommentsEnd before) (closed : ¬ commentCloser <:+: comment) (closed' : ¬ commentCloser <:+: comment')
    (lines : Text.breaks comment = Text.breaks comment') (name : String) (data : Fields) :
    (Renderer.render ⟨⟨format, key, now⟩, limits⟩ name data).answer
        (cache.withComment template modified before comment after)
      = (Renderer.render ⟨⟨format, key, now⟩, limits⟩ name data).answer
        (cache.withComment template modified before comment' after) := by
  have akin : Source.Akin format template ⟨String.ofList (commented before comment after), modified⟩
      ⟨String.ofList (commented before comment' after), modified⟩ :=
    ⟨rfl, Program.compile_commented format template before comment comment' after ended closed closed' lines⟩
  exact render_twins (Memory.twins key) now name limits data _ _ ⟨Memory.akin_addSource _ _ _ _ akin, rfl⟩

def Cache.letter : Cache Memory := ⟨Memory.empty.addSource "page" ⟨"@include('part')@include('part')", 1⟩, ⟨0, 0⟩⟩

def Cache.letterBefore : List Char := "Dear \x7b\x7b--all--\x7d\x7d ".toList

def Cache.letterAfter : List Char := "\x7b\x7b $user \x7d\x7d, ".toList

theorem Cache.commentsEnd_letter : CommentsEnd letterBefore := by
  have pieces : divideComments 1 letterBefore
      = [.text ['D', 'e', 'a', 'r', ' '] 1, .comment ['a', 'l', 'l'] 1, .text [' '] 1] := by
    cbv
  intro content line inside
  rw [pieces] at inside
  simp only [List.mem_cons, Piece.text.injEq, reduceCtorEq, List.not_mem_nil, or_false, false_or] at inside
  rcases inside with ⟨rfl, _⟩ | ⟨rfl, _⟩
  · decide
  · decide

theorem Cache.render_commented_letter :
    (Renderer.render ⟨⟨.escaping, id, 1⟩, ⟨false, 1, 1, 1⟩⟩ "page" [("user", .string "Ann")]).result?
      (letter.withComment "part" 1 letterBefore "@if( \x7b\x7b $x '--\x7d".toList letterAfter)
      = some "Dear  Ann, Dear  Ann, " ∧
    (Renderer.render ⟨⟨.escaping, id, 1⟩, ⟨false, 1, 1, 1⟩⟩ "page" [("user", .string "Ann")]).answer
      (letter.withComment "part" 1 letterBefore "@if( \x7b\x7b $x '--\x7d".toList letterAfter)
      = (Renderer.render ⟨⟨.escaping, id, 1⟩, ⟨false, 1, 1, 1⟩⟩ "page" [("user", .string "Ann")]).answer
        (letter.withComment "part" 1 letterBefore [] letterAfter) :=
  ⟨by decide +kernel, render_commented .escaping id 1 _ letter "part" 1 letterBefore _ [] letterAfter commentsEnd_letter
    (by decide +kernel) (by decide +kernel) (by decide +kernel) "page" _⟩

end Stencil
