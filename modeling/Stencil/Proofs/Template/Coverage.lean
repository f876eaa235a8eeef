import Stencil.Program.Compile
import Stencil.Proofs.Template.Account

set_option autoImplicit false

namespace Stencil.Template

def echoOpener : List Char := ['\x7b', '\x7b']

def echoCloser : List Char := ['\x7d', '\x7d']

inductive Unhides : List Char → List Char → Prop where
  | plain {range : List Char} (absent : cutBetween echoOpener echoCloser range = none) : Unhides range range
  | hidden {range before inside after content : List Char}
      (found : cutBetween echoOpener echoCloser range = some (before ++ ['@'], inside, after))
      (later : Unhides after content) :
      Unhides range (before ++ (echoOpener ++ inside ++ echoCloser) ++ content)

theorem pieces_hidden (format : EchoFormat) (before inside : List Char) (line : Nat) :
    (EchoKind.regular format).pieces (before ++ ['@']) inside line = textPiece before line
      ++ [.text (echoOpener ++ inside ++ echoCloser) (line + Text.breaks before)] := by
  have hidden : (before ++ ['@']).getLast? = some '@' := List.getLast?_concat
  have level : Text.breaks (before ++ ['@']) = Text.breaks before := by
    rw [breaks_append, show Text.breaks ['@'] = 0 by decide, Nat.add_zero]
  rw [EchoKind.pieces, level, hidden, List.dropLast_concat]
  rfl

section Joins

variable {first : Nat} {text : List Char} {pieces : List Piece}

theorem joinTexts_other (piece : Piece) (pieces : List Piece) (other : ¬ piece.IsText) :
    joinTexts (piece :: pieces) = piece :: joinTexts pieces := by
  cases piece with
  | text content line => exact absurd ⟨content, line, rfl⟩ other
  | comment | directive | echo =>
      rw [joinTexts]
      nofun

theorem startsApart_joinTexts (pieces : List Piece) (apart : StartsApart pieces) : StartsApart (joinTexts pieces) := by
  cases pieces with
  | nil => exact apart
  | cons piece rest =>
      rw [joinTexts_other piece rest (apart piece rfl)]
      exact startsApart_cons (apart piece rfl)

theorem joinTexts_last (content : List Char) (line : Nat) (pieces : List Piece) (apart : StartsApart (joinTexts pieces)) :
    joinTexts (.text content line :: pieces) = .text content line :: joinTexts pieces := by
  rw [joinTexts]
  split
  · rename_i more place others joined
    rw [joined] at apart
    exact absurd ⟨more, place, rfl⟩ (apart _ rfl)
  · rfl

theorem joinTexts_more (content more : List Char) (line place : Nat) (pieces others : List Piece)
    (joined : joinTexts pieces = .text more place :: others) :
    joinTexts (.text content line :: pieces) = .text (content ++ more) line :: others := by
  rw [joinTexts, joined]

theorem joinTexts_append (pieces others : List Piece) (apart : StartsApart others) :
    joinTexts (pieces ++ others) = joinTexts pieces ++ joinTexts others := by
  have clear := startsApart_joinTexts others apart
  fun_induction joinTexts pieces with
  | case1 => rfl
  | case2 content line rest more place tail joined ih =>
      rw [joined] at ih
      exact joinTexts_more content more line place _ _ ih
  | case3 content line rest alone ih =>
      have separate : StartsApart (joinTexts rest) := by
        by_cases apart : StartsApart (joinTexts rest)
        · exact apart
        · obtain ⟨more, place, tail, joined⟩ := not_startsApart apart
          exact absurd joined (alone more place tail)
      rw [List.cons_append, joinTexts_last content line, ih, List.cons_append]
      rw [ih]
      exact startsApart_append separate clear
  | case4 piece rest other ih =>
      rw [List.cons_append, joinTexts_other _ _ (fun ⟨content, line, same⟩ => other content line same), ih,
        List.cons_append]

theorem joinTexts_divideTexts (divide : Nat → List Char → List Piece) (whole : Accounts Eq first text pieces) :
    joinTexts (divideTexts divide pieces) = divideTexts (fun line content => joinTexts (divide line content)) pieces := by
  induction whole with
  | nil => rfl
  | @cons first range rest piece pieces place fills apart later ih =>
      by_cases isText : piece.IsText
      · have clear := apart isText
        obtain ⟨content, line, rfl⟩ := isText
        rw [divideTexts_text, divideTexts_text, ← ih]
        exact joinTexts_append _ _ (startsApart_divideTexts divide pieces clear)
      · rw [divideTexts_other _ piece pieces isText, divideTexts_other _ piece pieces isText,
          joinTexts_other _ _ isText, ih]

theorem joinTexts_textPiece (content : List Char) (line : Nat) :
    joinTexts (textPiece content line) = textPiece content line := by
  rw [textPiece]
  by_cases empty : content.isEmpty = true
  · rw [if_pos empty]
    rfl
  · rw [if_neg empty]
    rfl

-- Two texts side by side are one, also when the first is empty and nothing of it is left.
theorem joinTexts_two (content more : List Char) (line place : Nat) (pieces : List Piece)
    (same : content = [] → place = line) :
    joinTexts (textPiece content line ++ .text more place :: pieces) = joinTexts (.text (content ++ more) line :: pieces) := by
  rw [textPiece]
  by_cases empty : content.isEmpty = true
  · have nothing := List.isEmpty_iff.mp empty
    rw [if_pos empty, nothing, same nothing]
    rfl
  · rw [if_neg empty]
    rw [List.singleton_append]
    by_cases apart : StartsApart (joinTexts pieces)
    · have inner := joinTexts_last more place pieces apart
      rw [joinTexts_more content more line place _ _ inner, joinTexts_last _ line pieces apart]
    · obtain ⟨further, start, others, joined⟩ := not_startsApart apart
      have inner := joinTexts_more more further place start pieces others joined
      rw [joinTexts_more content _ line place _ _ inner, joinTexts_more _ further line start _ _ joined, List.append_assoc]

theorem unhides_further {before inside after range content : List Char}
    (found : cutBetween echoOpener echoCloser text = some (before ++ ['@'], inside, after))
    (later : Unhides range content) :
    Unhides (before ++ ['@'] ++ (echoOpener ++ inside ++ echoCloser) ++ range)
      (before ++ (echoOpener ++ inside ++ echoCloser) ++ content) :=
  Unhides.hidden (cutBetween_before echoOpener echoCloser text _ inside after range found) later

theorem accounts_hidden {before inside after : List Char}
    (found : cutBetween echoOpener echoCloser text = some (before ++ ['@'], inside, after))
    (later : Accounts Unhides (first + Text.breaks (before ++ ['@'] ++ (echoOpener ++ inside ++ echoCloser))) after
      (joinTexts pieces)) :
    Accounts Unhides first text (joinTexts (.text (before ++ (echoOpener ++ inside ++ echoCloser)) first :: pieces)) := by
  rw [eq_append_of_cutBetween _ _ _ _ _ _ found]
  by_cases apart : StartsApart (joinTexts pieces)
  · have fills := unhides_further found (Unhides.plain rfl : Unhides [] [])
    rw [List.append_nil, List.append_nil] at fills
    rw [joinTexts_last _ first pieces apart]
    exact Accounts.cons rfl fills (fun _ => apart) later
  · obtain ⟨more, place, others, joined⟩ := not_startsApart apart
    rw [joined] at later
    rw [joinTexts_more _ more first place pieces others joined]
    cases later with
    | cons place fills clear later =>
        rw [← List.append_assoc]
        refine Accounts.cons rfl (unhides_further found fills) (fun _ => clear ⟨more, _, rfl⟩) ?_
        rw [breaks_append, ← Nat.add_assoc]
        exact later

theorem accounts_regular (format : EchoFormat) (first : Nat) (text : List Char) :
    Accounts Unhides first text (joinTexts (divideEchoes (.regular format) first text)) := by
  fun_induction divideEchoes (.regular format) first text with
  | case1 first text absent =>
      rw [joinTexts_textPiece]
      exact accounts_textPiece (Unhides.plain absent)
  | case2 first text before inside after found ih =>
      have level : Text.breaks (echoOpener ++ inside ++ echoCloser) = Text.breaks inside :=
        breaks_enclosed echoOpener echoCloser (by decide) (by decide) inside
      by_cases hidden : before.getLast? = some '@'
      · obtain ⟨front, rfl⟩ := List.getLast?_eq_some_iff.mp hidden
        rw [pieces_hidden, List.append_assoc, List.singleton_append, joinTexts_two]
        · apply accounts_hidden found
          rw [breaks_append, ← Nat.add_assoc, level]
          exact ih
        · rintro rfl
          rfl
      · have visible : ((EchoKind.regular format).hidden && before.getLast? = some '@') = false := by
          rw [decide_eq_false hidden, Bool.and_false]
        have alone := joinTexts_textPiece before first
        rw [pieces_visible _ before inside first visible, List.append_assoc, List.singleton_append,
          joinTexts_append _ _ (startsApart_cons (Piece.not_text_echo _ _ _)), alone,
          joinTexts_other _ _ (Piece.not_text_echo _ _ _), eq_append_of_cutBetween _ _ _ _ _ _ found]
        have absent := cutBetween_absent _ _ text before inside after (List.cons_ne_nil _ _) found
        apply accounts_found (Unhides.plain absent) (Piece.not_text_echo _ _ _) rfl rfl
        rw [breaks_enclosed _ _ rfl rfl]
        exact ih

end Joins

theorem pieces_eq (format : EchoFormat) (text : List Char) (pieces : List Piece)
    (read : Template.pieces format text = .ok pieces) :
    ∃ divided, directives (comments [.text text 1]) = .ok divided ∧
      pieces = joinTexts (divideTexts (divideEchoes (.regular format))
        (divideTexts (divideEchoes .raw) (divideTexts (divideEchoes .escaped) divided))) := by
  rw [Template.pieces] at read
  split at read
  · rename_i divided done
    exact ⟨divided, done, (Except.ok.inj read).symm⟩
  · simp at read

theorem accounts_echoed (format : EchoFormat) (text : List Char) (divided : List Piece)
    (account : Accounts Eq 1 text divided) : Accounts Unhides 1 text (echoes format divided) := by
  have escaped := accounts_divideTexts _ (accounts_echoes .escaped rfl (by decide) (by decide)) account
  have raw := accounts_divideTexts _ (accounts_echoes .raw rfl (by decide) (by decide)) escaped
  rw [echoes, joinTexts_divideTexts _ raw]
  exact accounts_divideTexts _ (accounts_regular format) raw

theorem pieces_account (format : EchoFormat) (text : List Char) (divided : List Piece)
    (done : directives (comments [.text text 1]) = .ok divided) :
    ∃ pieces, Template.pieces format text = .ok pieces ∧ Accounts Unhides 1 text pieces := by
  refine ⟨echoes format divided, ?_, accounts_echoed format text divided (accounts_divided text divided done)⟩
  rw [Template.pieces, done]

def mixed : List Char :=
  "a\x7b\x7b-- b\n --\x7d\x7d@if ($c)d@\x7b\x7b e \x7d\x7d\x7b\x7b $f \x7d\x7d\x7b\x7b\x7b $g \x7d\x7d\x7d\x7b!! $h !!\x7d@endif".toList

def mixedEchoes : List Char :=
  "d@\x7b\x7b e \x7d\x7d\x7b\x7b $f \x7d\x7d\x7b\x7b\x7b $g \x7d\x7d\x7d\x7b!! $h !!\x7d".toList

def mixedDivided : List Piece :=
  [.text "a".toList 1, .comment " b\n ".toList 1, .directive .openIf (some "($c)".toList) 2, .text mixedEchoes 2,
    .directive .closeIf none 2]

def mixedPieces : List Piece :=
  [.text "a".toList 1, .comment " b\n ".toList 1, .directive .openIf (some "($c)".toList) 2,
    .text "d\x7b\x7b e \x7d\x7d".toList 2,
    .echo "\x7b\x7b $f \x7d\x7d".toList "e($f)".toList 2,
    .echo "\x7b\x7b\x7b $g \x7d\x7d\x7d".toList "e($g)".toList 2,
    .echo "\x7b!! $h !!\x7d".toList "$h".toList 2, .directive .closeIf none 2]

theorem pieces_account_mixed :
    directives (comments [.text mixed 1]) = .ok mixedDivided ∧
      Template.pieces .escaping mixed = .ok mixedPieces ∧ Accounts Unhides 1 mixed mixedPieces := by
  have closed : directives (comments [.text mixed 1]) = .ok mixedDivided := ok_of_toOption _ _ (by decide +kernel)
  have shown : echoes .escaping mixedDivided = mixedPieces := by decide +kernel
  have read : Template.pieces .escaping mixed = .ok mixedPieces := by rw [Template.pieces, closed, ← shown]
  obtain ⟨pieces, same, account⟩ := pieces_account .escaping mixed mixedDivided closed
  obtain rfl : pieces = mixedPieces := Except.ok.inj (same.symm.trans read)
  exact ⟨closed, read, account⟩

end Stencil.Template
