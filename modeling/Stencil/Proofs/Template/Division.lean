import Stencil.Proofs.Expr.Passes
import Stencil.Proofs.Store.Names
import Stencil.Template.Fallback

set_option autoImplicit false

namespace Stencil.Template

structure OrAt (text before after : List Char) : Prop where
  blanks : ∃ c d behind, Text.isAsciiBlank c ∧ Text.isAsciiBlank d ∧ after = d :: behind ∧
    text = before ++ c :: 'o' :: 'r' :: after
  outside : ∃ tokens, Lexes before tokens

structure FirstOr (text before after : List Char) : Prop extends OrAt text before after where
  first : ∀ other rest, OrAt text other rest → before.length ≤ other.length

theorem behindOr_eq_some (rest after : List Char) :
    divideAtOr.behindOr? rest = some after ↔
      ∃ d behind, Text.isAsciiBlank d ∧ after = d :: behind ∧ rest = 'o' :: 'r' :: after := by
  constructor
  · intro found
    unfold divideAtOr.behindOr? at found
    split at found
    · split at found
      · rename_i d behind blank
        obtain rfl := Option.some.inj found
        exact ⟨d, behind, blank, rfl, rfl⟩
      · cases found
    · cases found
  · rintro ⟨d, behind, blank, rfl, rfl⟩
    exact if_pos blank

def Passable (quote : Option Char) (passed : List Char) : Prop :=
  ∀ tail, divideAtOr quote (passed ++ tail) =
    (divideAtOr none tail).map fun (before, after) => (passed ++ before, after)

theorem passable_nil : Passable none [] := by
  intro tail
  rw [List.nil_append]
  cases divideAtOr none tail <;> rfl

theorem passable_cons {quote other : Option Char} {c : Char} {passed : List Char} (behind : Passable other passed)
    (step : ∀ rest, divideAtOr quote (c :: rest) = Text.prepend c (divideAtOr other rest)) :
    Passable quote (c :: passed) := by
  intro tail
  rw [List.cons_append, step, behind, Text.prepend, Option.map_map]
  rfl

theorem divideAtOr_inside (quote c : Char) (rest : List Char) (plain : c ≠ '\\') :
    divideAtOr (some quote) (c :: rest) =
      Text.prepend c (divideAtOr (if c = quote then none else some quote) rest) := by
  rw [divideAtOr.eq_def]
  simp only [if_neg plain]
  split <;> rfl

theorem passable_quoted {quote : Char} {passed : List Char} (quoted : Token.Quoted quote passed) :
    Passable (some quote) passed := by
  induction quoted with
  | closed plain =>
      refine passable_cons passable_nil fun rest => ?_
      rw [divideAtOr_inside quote quote rest plain, if_pos rfl]
  | escaped c _ ih =>
      intro tail
      simp only [List.cons_append, divideAtOr, if_true, ih tail, Text.prepend, Option.map_map]
      rfl
  | @plain c _ plain other _ ih =>
      refine passable_cons ih fun rest => ?_
      rw [divideAtOr_inside quote c rest plain, if_neg other]

def Solid (c : Char) : Prop := Text.isBlank c = false ∧ c ≠ '\'' ∧ c ≠ '"'

instance : DecidablePred Solid := fun _ => inferInstanceAs (Decidable (_ ∧ _ ∧ _))

theorem isBlank_of_ascii (c : Char) (blank : Text.isAsciiBlank c) : Text.isBlank c = true := by
  simp only [Text.isAsciiBlank, Bool.or_eq_true, decide_eq_true_eq] at blank
  rcases blank with (((rfl | rfl) | rfl) | rfl) | rfl <;> decide

theorem isBlank_of_nameChar (c : Char) (named : isNameChar c = true) : Text.isBlank c = false := by
  refine TemplateName.isBlank_of_isWord c ?_
  change (isNameChar c || Text.inRanges Text.wordRanges c.toNat) = true
  rw [named, Bool.true_or]

theorem passable_solid (passed : List Char) (solid : ∀ c ∈ passed, Solid c) : Passable none passed := by
  induction passed with
  | nil => exact passable_nil
  | cons c passed ih =>
      obtain ⟨visible, single, double⟩ := solid c List.mem_cons_self
      have unblank : ¬ Text.isAsciiBlank c := fun blank => by cases visible.symm.trans (isBlank_of_ascii c blank)
      refine passable_cons (ih fun d inside => solid d (List.mem_cons_of_mem c inside)) fun rest => ?_
      simp [divideAtOr, unblank, single, double]

theorem solid_of_nameChar (c : Char) (named : isNameChar c = true) : Solid c := by
  obtain ⟨_, _, single, double⟩ := Token.nameChar_plain c named
  exact ⟨isBlank_of_nameChar c named, single, double⟩

theorem solid_of_spelling (s : Symbol) : ∀ c ∈ s.spelling, Solid c := by
  have all : (s.spelling.all fun c => decide (Solid c)) = true := by cases s <;> decide
  simpa using all

-- What a token starts with, apart from a quote, is passed over one by one to its end.
theorem solid_of_firstToken (c : Char) (rest after : List Char) (token : Token) (unquoted : ¬ (c = '\'' || c = '"'))
    (first : firstToken c rest = .ok (token, after)) :
    ∃ passed, rest = passed ++ after ∧ ∀ d ∈ c :: passed, Solid d :=
  Token.kind_of_firstToken solid_of_nameChar (by decide) (by decide) c rest after token unquoted
    (fun s _ => solid_of_spelling s) first

theorem isBlank_of_firstToken (c : Char) (rest after : List Char) (token : Token)
    (first : firstToken c rest = .ok (token, after)) : Text.isBlank c = false := by
  by_cases quote : c = '\'' || c = '"'
  · have either : c = '\'' ∨ c = '"' := by simpa using quote
    rcases either with rfl | rfl <;> decide
  · obtain ⟨passed, _, solid⟩ := solid_of_firstToken c rest after token quote first
    exact (solid c List.mem_cons_self).1

theorem passable_firstToken (c : Char) (rest after : List Char) (token : Token)
    (first : firstToken c rest = .ok (token, after)) :
    ∃ passed, rest = passed ++ after ∧ Passable none (c :: passed) ∧
      (c = '\'' ∨ c = '"' → (quotedText? c passed).isSome) := by
  by_cases quote : c = '\'' || c = '"'
  · have dollar : c ≠ '$' := by
      rintro rfl
      cases quote
    rw [firstToken, if_neg dollar, if_pos quote] at first
    split at first
    · rename_i content left found
      obtain ⟨_, rfl⟩ := Prod.mk.inj (Except.ok.inj first)
      obtain ⟨passed, rfl, quoted⟩ := Token.quoted_of_quotedText c rest content left found
      refine ⟨passed, rfl, passable_cons (passable_quoted quoted) fun rest => ?_, fun _ => ?_⟩
      · simp only [divideAtOr, if_pos quote]
      · obtain ⟨content, closed⟩ := Token.quotedText_of_quoted quoted []
        rw [List.append_nil] at closed
        rw [closed]
        rfl
    · cases first
  · obtain ⟨passed, rfl, solid⟩ := solid_of_firstToken c rest after token quote first
    exact ⟨passed, rfl, passable_solid _ solid, fun marks => absurd (by simpa using marks) quote⟩

theorem divideAtOr_blank (c : Char) (rest : List Char) (blank : Text.isAsciiBlank c) :
    divideAtOr none (c :: rest) =
      match divideAtOr.behindOr? rest with
      | some after => some ([], after)
      | none => Text.prepend c (divideAtOr none rest) := by
  have unquoted : ¬ (c = '\'' || c = '"') := by
    simp only [Bool.or_eq_true, decide_eq_true_eq]
    rintro (rfl | rfl) <;> cases blank
  cases found : divideAtOr.behindOr? rest with
  | none => simp only [divideAtOr, if_neg unquoted, if_pos blank, found]
  | some after => simp only [divideAtOr, if_neg unquoted, if_pos blank, found]

theorem apart_blank (c : Char) (rest : List Char) (blank : Text.isBlank c = true) : Token.Apart (c :: rest) := by
  intro d first
  obtain rfl := Option.some.inj first
  rw [Token.goesOn, Bool.or_eq_false_iff]
  refine ⟨Bool.eq_false_iff.mpr fun named => ?_, Bool.eq_false_iff.mpr fun listed => ?_⟩
  · cases blank.symm.trans (isBlank_of_nameChar c named)
  · simp only [List.contains_eq_mem, List.mem_cons, List.not_mem_nil, or_false, decide_eq_true_eq] at listed
    rcases listed with rfl | rfl | rfl | rfl | rfl | rfl | rfl | rfl <;> cases blank

theorem orAt_cons {text before after : List Char} {tokens : List Token} (passed : List Char)
    (or_ : OrAt text before after) (lexes : Lexes (passed ++ before) tokens) :
    OrAt (passed ++ text) (passed ++ before) after := by
  obtain ⟨⟨c, d, behind, first, last, ended, rfl⟩, _⟩ := or_
  exact ⟨⟨c, d, behind, first, last, ended, (List.append_assoc ..).symm⟩, tokens, lexes⟩

theorem firstToken_or (d : Char) (rest : List Char) (blank : Text.isAsciiBlank d) :
    firstToken 'o' ('r' :: d :: rest) = .ok (.word "or", d :: rest) := by
  have whole : firstToken 'o' ['r'] = .ok (.word "or", []) := rfl
  have marks : ('o' : Char) = '\'' ∨ ('o' : Char) = '"' → (quotedText? 'o' ['r']).isSome ∨ 'o' ∉ d :: rest := by
    rintro (same | same) <;> exact absurd same (by decide)
  have split := Token.firstToken_append 'o' ['r'] (apart_blank d rest (isBlank_of_ascii d blank)) marks
  rw [whole] at split
  exact split

/-- The place that is found in a text of tokens is an `or` among them, with the tokens of the part in front of it and
of the part behind it on its two sides. -/
theorem or_of_divideAtOr (text before after : List Char) (whole : List Token) (lexes : Lexes text whole)
    (found : divideAtOr none text = some (before, after)) :
    OrAt text before after ∧
      ∃ early late, whole = early ++ .word "or" :: late ∧ Lexes before early ∧ Lexes after late := by
  induction lexes generalizing before with
  | ended => cases found
  | @blank c rest tokens skipped behind ih =>
      rw [divideAtOr_blank c rest skipped] at found
      split at found
      · rename_i left here
        obtain ⟨rfl, rfl⟩ := Prod.mk.inj (Option.some.inj found)
        obtain ⟨d, others, blank, rfl, rfl⟩ := (behindOr_eq_some rest left).mp here
        refine ⟨⟨⟨c, d, others, skipped, blank, rfl, rfl⟩, [], .ended⟩, ?_⟩
        cases behind with
        | blank other => exact absurd other (by decide)
        | token _ first late =>
            rw [firstToken_or d others blank] at first
            obtain ⟨rfl, rfl⟩ := Prod.mk.inj (Except.ok.inj first)
            exact ⟨[], _, rfl, .ended, late⟩
      · obtain ⟨inner, here, rfl⟩ := Text.prepend_eq_some.mp found
        obtain ⟨place, early, late, rfl, lexes, lexes'⟩ := ih inner here
        exact ⟨orAt_cons [c] place (.blank skipped lexes), early, late, rfl, .blank skipped lexes, lexes'⟩
  | @token c rest left token tokens visible first behind ih =>
      obtain ⟨passed, rfl, passable, closed⟩ := passable_firstToken c rest left token first
      rw [← List.cons_append, passable left] at found
      obtain ⟨⟨inner, last⟩, here, same⟩ := Option.map_eq_some_iff.mp found
      obtain ⟨rfl, rfl⟩ := Prod.mk.inj same
      obtain ⟨place, early, late, rfl, lexes, lexes'⟩ := ih inner here
      -- the blank that follows ends the token as well as the rest of its text did
      have again : Lexes (c :: (passed ++ inner)) (token :: early) := by
        refine .token visible ?_ lexes
        obtain ⟨⟨space, d, others, skipped, _, _, rfl⟩, _⟩ := place
        have blank := isBlank_of_ascii space skipped
        have marks : c = '\'' ∨ c = '"' →
            (quotedText? c (passed ++ inner)).isSome ∨ c ∉ space :: 'o' :: 'r' :: last := by
          intro quote
          obtain ⟨⟨content, _⟩, found⟩ := Option.isSome_iff_exists.mp (closed quote)
          exact .inl (by rw [Token.quotedText_append c passed content _ found]; rfl)
        rw [← List.append_assoc, Token.firstToken_append c _ (apart_blank space _ blank) marks] at first
        cases read : firstToken c (passed ++ inner) with
        | error fault =>
            rw [read] at first
            cases first
        | ok parts =>
            rw [read] at first
            obtain ⟨rfl, same⟩ := Prod.mk.inj (Except.ok.inj first)
            rw [← List.append_cancel_right same]
      exact ⟨orAt_cons (c :: passed) place again, token :: early, late, rfl, again, lexes'⟩

theorem divideAtOr_of_or (text before after : List Char) (place : OrAt text before after) :
    ∃ first rest, divideAtOr none text = some (first, rest) ∧ first.length ≤ before.length := by
  obtain ⟨⟨c, d, behind, blank, last, rfl, rfl⟩, tokens, lexes⟩ := place
  have or_ := (behindOr_eq_some ('o' :: 'r' :: d :: behind) _).mpr ⟨d, behind, last, rfl, rfl⟩
  induction lexes with
  | ended => exact ⟨[], _, by rw [List.nil_append, divideAtOr_blank c _ blank, or_], Nat.le_refl 0⟩
  | @blank space rest tokens skipped _ ih =>
      obtain ⟨first, others, found, within⟩ := ih
      rw [List.cons_append, divideAtOr_blank space _ skipped]
      split
      · exact ⟨[], _, rfl, Nat.zero_le _⟩
      · exact ⟨space :: first, others, by rw [found]; rfl, Nat.succ_le_succ within⟩
  | @token e rest left token tokens visible first _ ih =>
      obtain ⟨passed, rfl, passable, _⟩ := passable_firstToken e rest left token first
      obtain ⟨first, others, found, within⟩ := ih
      refine ⟨e :: passed ++ first, others, ?_, ?_⟩
      · rw [← List.cons_append, List.append_assoc, passable, found]
        rfl
      · simp only [List.length_append, List.length_cons]
        omega

/-- A text of tokens is divided at its first `or` between blanks outside strings, and at no other place. -/
theorem divideAtOr_eq_some (text before after : List Char) (whole : List Token) (lexes : Lexes text whole) :
    divideAtOr none text = some (before, after) ↔ FirstOr text before after := by
  constructor
  · intro found
    refine ⟨(or_of_divideAtOr text before after whole lexes found).1, fun other rest place => ?_⟩
    obtain ⟨first, _, found', within⟩ := divideAtOr_of_or text other rest place
    rw [found] at found'
    obtain ⟨rfl, _⟩ := Prod.mk.inj (Option.some.inj found')
    exact within
  · rintro ⟨place, least⟩
    obtain ⟨first, rest, found, within⟩ := divideAtOr_of_or text before after place
    have other := (or_of_divideAtOr text first rest whole lexes found).1
    have same := Nat.le_antisymm within (least first rest other)
    obtain ⟨⟨c, d, behind, _, _, _, listed⟩, _⟩ := place
    obtain ⟨⟨c', d', behind', _, _, _, listed'⟩, _⟩ := other
    rw [listed] at listed'
    obtain ⟨rfl, more⟩ := List.append_inj listed' same.symm
    simp only [List.cons.injEq, true_and] at more
    rw [found, more.2]

section

variable {text : List Char} {tokens : List Token}

theorem lexes_trimStart (lexes : Lexes text tokens) : Lexes (Text.trimStart text) tokens := by
  rw [Text.trimStart]
  induction lexes with
  | ended => exact .ended
  | @blank c rest tokens skipped _ ih =>
      rw [List.dropWhile_cons_of_pos (isBlank_of_ascii c skipped)]
      exact ih
  | @token c rest left token tokens visible first behind _ =>
      rw [List.dropWhile_cons_of_neg (by simp [isBlank_of_firstToken c rest left token first])]
      exact .token visible first behind

theorem tokens_of_blanks (blank : ∀ c ∈ text, Text.isBlank c = true) (lexes : Lexes text tokens) : tokens = [] := by
  have trimmed := lexes_trimStart lexes
  rw [Text.trimStart, List.dropWhile_eq_nil_iff.mpr blank] at trimmed
  cases trimmed
  rfl

theorem lexes_trimEnd (lexes : Lexes text tokens) : Lexes (Text.trimEnd text) tokens := by
  obtain ⟨blanks, split, blank⟩ :
      ∃ blanks, text = Text.trimEnd text ++ blanks ∧ ∀ c ∈ blanks, Text.isBlank c = true := by
    refine ⟨(text.reverse.takeWhile Text.isBlank).reverse, ?_, fun c inside => ?_⟩
    · rw [Text.trimEnd, ← List.reverse_append, List.takeWhile_append_dropWhile, List.reverse_reverse]
    · exact List.mem_takeWhile_imp (List.mem_reverse.mp inside)
  have apart : Token.Apart blanks := by
    cases blanks with
    | nil => exact fun _ first => by cases first
    | cons c rest => exact apart_blank c rest (blank c List.mem_cons_self)
  have single : '\'' ∉ blanks := fun inside => by cases blank _ inside
  have double : '"' ∉ blanks := fun inside => by cases blank _ inside
  rw [split] at lexes
  obtain ⟨early, late, rfl, trimmed, behind⟩ := lexes_divide apart single double lexes
  rwa [tokens_of_blanks blank behind, List.append_nil]

end

end Stencil.Template
