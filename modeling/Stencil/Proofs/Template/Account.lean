import Stencil.Proofs.Expr.Grammar
import Stencil.Proofs.Template.Cut

set_option autoImplicit false

namespace Stencil.Template

def IsGroup (args : List Char) : Prop := args.head? = some '(' ∧ group? args = some (args, [])

namespace Piece

def line : Piece → Nat
  | .text _ line => line
  | .comment _ line => line
  | .directive _ _ line => line
  | .echo _ _ line => line

def IsText (piece : Piece) : Prop := ∃ content line, piece = .text content line

-- The range of a template that a piece is made of. What the range of a text shows is left open.
def Fills (shows : List Char → List Char → Prop) : Piece → List Char → Prop
  | .text content _, range => shows range content
  | .comment content _, range => range = commentOpener ++ content ++ commentCloser
  | .directive d none _, range => range = '@' :: d.name.toList
  | .directive d (some args) _, range =>
      IsGroup args ∧ ∃ gap, gap.all isGap = true ∧ range = '@' :: (d.name.toList ++ gap ++ args)
  | .echo source _ _, range => range = source

theorem not_text_comment (content : List Char) (line : Nat) : ¬ (Piece.comment content line).IsText := nofun

theorem not_text_directive (d : Directive) (args : Option (List Char)) (line : Nat) :
    ¬ (Piece.directive d args line).IsText := nofun

theorem not_text_echo (source expression : List Char) (line : Nat) : ¬ (Piece.echo source expression line).IsText :=
  nofun

end Piece

def StartsApart (pieces : List Piece) : Prop := ∀ piece ∈ pieces.head?, ¬ piece.IsText

-- The pieces of a text that starts on the line `first`. No text follows a text.
inductive Accounts (shows : List Char → List Char → Prop) : Nat → List Char → List Piece → Prop where
  | nil (first : Nat) : Accounts shows first [] []
  | cons {first : Nat} {range rest : List Char} {piece : Piece} {pieces : List Piece}
      (place : piece.line = first) (fills : piece.Fills shows range) (apart : piece.IsText → StartsApart pieces)
      (later : Accounts shows (first + Text.breaks range) rest pieces) :
      Accounts shows first (range ++ rest) (piece :: pieces)

section Accounts

variable {shows : List Char → List Char → Prop} {first : Nat} {text more : List Char} {pieces others : List Piece}

theorem accounts_mem (account : Accounts shows first text pieces) :
    ∀ piece ∈ pieces, ∃ before range after, text = before ++ range ++ after ∧ piece.Fills shows range ∧
      piece.line = first + Text.breaks before := by
  induction account with
  | nil first => nofun
  | @cons first range rest piece pieces place fills apart later ih =>
      refine List.forall_mem_cons.mpr ⟨⟨[], range, rest, rfl, fills, place⟩, fun other inside => ?_⟩
      obtain ⟨before, found, after, rfl, fills, place⟩ := ih other inside
      refine ⟨range ++ before, found, after, by simp only [List.append_assoc], fills, ?_⟩
      rw [place, breaks_append, Nat.add_assoc]

theorem startsApart_cons {piece : Piece} (other : ¬ piece.IsText) : StartsApart (piece :: pieces) := by
  intro next same
  rwa [← Option.mem_some.mp same]

theorem not_startsApart (texts : ¬ StartsApart pieces) : ∃ content line others, pieces = .text content line :: others := by
  cases pieces with
  | nil => exact absurd nofun texts
  | cons piece rest =>
      by_cases isText : piece.IsText
      · obtain ⟨content, line, rfl⟩ := isText
        exact ⟨content, line, rest, rfl⟩
      · exact absurd (startsApart_cons isText) texts

theorem startsApart_append (left : StartsApart pieces) (right : StartsApart others) : StartsApart (pieces ++ others) := by
  cases pieces with
  | nil => exact right
  | cons piece rest => exact startsApart_cons (left piece rfl)

theorem accounts_append (front : Accounts shows first text pieces)
    (back : Accounts shows (first + Text.breaks text) more others) (apart : StartsApart others) :
    Accounts shows first (text ++ more) (pieces ++ others) := by
  induction front with
  | nil first =>
      rw [Text.breaks, List.count_nil] at back
      exact back
  | @cons first range rest piece pieces place fills apartRest later ih =>
      rw [breaks_append, ← Nat.add_assoc] at back
      rw [List.append_assoc]
      exact Accounts.cons place fills (fun isText => startsApart_append (apartRest isText) apart) (ih back)

theorem accounts_textPiece (same : shows text text) : Accounts shows first text (textPiece text first) := by
  rw [textPiece]
  by_cases empty : text.isEmpty = true
  · rw [if_pos empty, List.isEmpty_iff.mp empty]
    exact Accounts.nil first
  · rw [if_neg empty]
    have only : Accounts shows first (text ++ []) [.text text first] :=
      Accounts.cons rfl same (fun _ => nofun) (Accounts.nil _)
    rwa [List.append_nil] at only

theorem accounts_found {before range after : List Char} {piece : Piece} (same : shows before before)
    (other : ¬ piece.IsText) (place : piece.line = first + Text.breaks before) (fills : piece.Fills shows range)
    (later : Accounts shows (first + Text.breaks before + Text.breaks range) after pieces) :
    Accounts shows first (before ++ range ++ after) (textPiece before first ++ piece :: pieces) := by
  rw [List.append_assoc]
  exact accounts_append (accounts_textPiece same)
    (Accounts.cons place fills (fun isText => absurd isText other) later) (startsApart_cons other)

theorem fills_other {piece : Piece} {range : List Char} (other : ¬ piece.IsText) (exact : piece.Fills Eq range) :
    piece.Fills shows range := by
  cases piece with
  | text content line => exact absurd ⟨content, line, rfl⟩ other
  | comment | echo => exact exact
  | directive d args line =>
      cases args with
      | none => exact exact
      | some args => exact exact

theorem divideTexts_text (divide : Nat → List Char → List Piece) (content : List Char) (line : Nat)
    (pieces : List Piece) :
    divideTexts divide (.text content line :: pieces) = divide line content ++ divideTexts divide pieces := rfl

theorem divideTexts_other (divide : Nat → List Char → List Piece) (piece : Piece) (pieces : List Piece)
    (other : ¬ piece.IsText) : divideTexts divide (piece :: pieces) = piece :: divideTexts divide pieces := by
  cases piece with
  | text content line => exact absurd ⟨content, line, rfl⟩ other
  | comment | directive | echo => rfl

theorem startsApart_divideTexts (divide : Nat → List Char → List Piece) (pieces : List Piece)
    (apart : StartsApart pieces) : StartsApart (divideTexts divide pieces) := by
  cases pieces with
  | nil => exact apart
  | cons piece rest =>
      rw [divideTexts_other divide piece rest (apart piece rfl)]
      exact startsApart_cons (apart piece rfl)

theorem accounts_divideTexts (divide : Nat → List Char → List Piece)
    (each : ∀ first text, Accounts shows first text (divide first text)) (whole : Accounts Eq first text pieces) :
    Accounts shows first text (divideTexts divide pieces) := by
  induction whole with
  | nil first => exact Accounts.nil first
  | @cons first range rest piece pieces place fills apart later ih =>
      by_cases isText : piece.IsText
      · obtain ⟨content, line, rfl⟩ := isText
        cases place
        cases fills
        rw [divideTexts_text]
        exact accounts_append (each _ range) ih (startsApart_divideTexts divide pieces (apart ⟨_, _, rfl⟩))
      · rw [divideTexts_other divide piece pieces isText]
        exact Accounts.cons place (fills_other isText fills) (fun yes => absurd yes isText) ih

theorem accounts_comments (first : Nat) (text : List Char) : Accounts Eq first text (divideComments first text) := by
  fun_induction divideComments first text with
  | case1 first text absent => exact accounts_textPiece rfl
  | case2 first text before body after found start ih =>
      rw [eq_append_of_cutBetween _ _ _ _ _ _ found]
      apply accounts_found rfl (Piece.not_text_comment body start) rfl rfl
      rw [breaks_enclosed commentOpener commentCloser (by decide) (by decide)]
      exact ih

theorem pieces_visible (kind : EchoKind) (before inside : List Char) (line : Nat)
    (visible : (kind.hidden && before.getLast? = some '@') = false) :
    kind.pieces before inside line = textPiece before line
      ++ [.echo (kind.opener ++ inside ++ kind.closer) (kind.expression inside) (line + Text.breaks before)] := by
  rw [EchoKind.pieces, visible, if_neg Bool.false_ne_true]

theorem accounts_echoes (kind : EchoKind) (plain : kind.hidden = false) (opener : Text.breaks kind.opener = 0)
    (closer : Text.breaks kind.closer = 0) (first : Nat) (text : List Char) :
    Accounts Eq first text (divideEchoes kind first text) := by
  fun_induction divideEchoes kind first text with
  | case1 first text absent => exact accounts_textPiece rfl
  | case2 first text before inside after found ih =>
      have visible : (kind.hidden && before.getLast? = some '@') = false := by rw [plain, Bool.false_and]
      rw [eq_append_of_cutBetween _ _ _ _ _ _ found, pieces_visible kind before inside first visible,
        List.append_assoc (textPiece before first), List.singleton_append]
      apply accounts_found rfl (Piece.not_text_echo _ _ _) rfl rfl
      rw [breaks_enclosed kind.opener kind.closer opener closer]
      exact ih

theorem group_is_group (rest group after : List Char) (found : group? ('(' :: rest) = some (group, after)) :
    IsGroup group := by
  have closed := group_of_groupRest none 0 _ group after found
  refine ⟨?_, closed⟩
  cases group with
  | nil => cases closed
  | cons c inside =>
      have whole := eq_append_of_groupRest? found
      rw [List.cons_append] at whole
      rw [List.head?_cons, (List.cons.inj whole).1]

theorem arguments_fill (text after : List Char) (args : Option (List Char))
    (found : arguments? text = some (args, after)) :
    ∃ written, text = written ++ after ∧ Text.breaks written = Text.breaks (args.getD []) ∧
      ∀ (d : Directive) (line : Nat), (Piece.directive d args line).Fills Eq ('@' :: (d.name.toList ++ written)) := by
  rw [arguments?] at found
  split at found
  · rename_i rest shape
    obtain ⟨⟨group, tail⟩, closed, same⟩ := Option.map_eq_some_iff.mp found
    obtain ⟨rfl, rfl⟩ := Prod.mk.inj same
    have whole := List.takeWhile_append_dropWhile (p := isGap) (l := text)
    rw [shape, eq_append_of_groupRest? closed, ← List.append_assoc] at whole
    have gap : (text.takeWhile isGap).all isGap = true := List.all_takeWhile
    have level : Text.breaks (text.takeWhile isGap) = 0 := by
      rw [Text.breaks, List.count_eq_zero]
      intro line
      exact absurd (List.all_eq_true.mp gap '\n' line) (by decide)
    refine ⟨text.takeWhile isGap ++ group, whole.symm, ?_, fun d line => ?_⟩
    · rw [breaks_append, level, Nat.zero_add, Option.getD_some]
    · exact ⟨group_is_group rest group tail closed, _, gap, by rw [List.append_assoc]⟩
  · obtain ⟨rfl, rfl⟩ := Prod.mk.inj (Option.some.inj found)
    exact ⟨[], rfl, rfl, fun d line => congrArg _ (List.append_nil _)⟩

theorem accounts_divideDirectives (afterWord : Bool) (first : Nat) (text : List Char) (pieces : List Piece)
    (divided : divideDirectives afterWord first text = .ok pieces) : Accounts Eq first text pieces := by
  fun_induction divideDirectives afterWord first text generalizing pieces with
  | case1 afterWord first text absent =>
      obtain rfl := Except.ok.inj divided
      exact accounts_textPiece rfl
  | case2 => cases divided
  | case3 afterWord first text before d afterName found start args after closed next ih =>
      cases more : divideDirectives args.isNone next after with
      | error unclosed =>
          rw [more] at divided
          cases divided
      | ok others =>
          rw [more] at divided
          obtain rfl := Except.ok.inj divided
          obtain ⟨written, behind, level, fills⟩ := arguments_fill afterName after args closed
          have whole : text = before ++ '@' :: (d.name.toList ++ written) ++ after := by
            rw [nextDirective_eq _ _ _ _ _ found, behind, List.append_assoc, List.cons_append, List.append_assoc]
          have same : Text.breaks ('@' :: (d.name.toList ++ written)) = Text.breaks (args.getD []) := by
            rw [← List.singleton_append, breaks_append, breaks_append, breaks_name, level,
              show Text.breaks ['@'] = 0 by decide, Nat.zero_add, Nat.zero_add]
          rw [whole]
          apply accounts_found rfl (Piece.not_text_directive d args start) rfl (fills d start)
          rw [same]
          exact ih others more

theorem directives_other (piece : Piece) (rest pieces : List Piece) (other : ¬ piece.IsText)
    (done : directives (piece :: rest) = .ok pieces) :
    ∃ others, directives rest = .ok others ∧ pieces = piece :: others := by
  cases piece with
  | text content line => exact absurd ⟨content, line, rfl⟩ other
  | comment | directive | echo =>
      rw [directives] at done
      · obtain ⟨others, more, done⟩ := (bind_eq_ok _ _ _).mp done
        exact ⟨others, more, (Except.ok.inj done).symm⟩
      · nofun

theorem startsApart_directives (pieces divided : List Piece) (apart : StartsApart pieces)
    (done : directives pieces = .ok divided) : StartsApart divided := by
  cases pieces with
  | nil =>
      obtain rfl := Except.ok.inj done
      exact apart
  | cons piece rest =>
      obtain ⟨others, _, rfl⟩ := directives_other piece rest divided (apart piece rfl) done
      exact startsApart_cons (apart piece rfl)

theorem accounts_directives (divided : List Piece) (whole : Accounts Eq first text pieces)
    (done : directives pieces = .ok divided) : Accounts Eq first text divided := by
  induction whole generalizing divided with
  | nil first =>
      obtain rfl := Except.ok.inj done
      exact Accounts.nil first
  | @cons first range rest piece pieces place fills apart later ih =>
      by_cases isText : piece.IsText
      · have clear := apart isText
        obtain ⟨content, line, rfl⟩ := isText
        cases place
        cases fills
        rw [directives] at done
        obtain ⟨parts, here, done⟩ := (bind_eq_ok _ _ _).mp done
        obtain ⟨others, more, done⟩ := (bind_eq_ok _ _ _).mp done
        obtain rfl := Except.ok.inj done
        exact accounts_append (accounts_divideDirectives false _ range parts here) (ih others more)
          (startsApart_directives pieces others clear more)
      · obtain ⟨others, more, rfl⟩ := directives_other piece pieces divided isText done
        exact Accounts.cons place (fills_other isText fills) (fun yes => absurd yes isText) (ih others more)

end Accounts

theorem accounts_divided (text : List Char) (divided : List Piece)
    (done : directives (comments [.text text 1]) = .ok divided) : Accounts Eq 1 text divided := by
  have start : Accounts Eq 1 text [.text text 1] := by
    have whole : Accounts Eq 1 (text ++ []) [.text text 1] :=
      Accounts.cons rfl rfl (fun _ => nofun) (Accounts.nil _)
    rwa [List.append_nil] at whole
  exact accounts_directives divided (accounts_divideTexts divideComments accounts_comments start) done

end Stencil.Template
