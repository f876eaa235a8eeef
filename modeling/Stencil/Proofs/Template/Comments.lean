import Stencil.Program.Compile
import Stencil.Proofs.Template.Cut

set_option autoImplicit false

namespace Stencil

namespace Text

def Unbordered (mark : List Char) : Prop := ∀ k < mark.length, 0 < k → ¬ mark.drop k <+: mark

instance (mark : List Char) : Decidable (Unbordered mark) :=
  inferInstanceAs (Decidable (∀ k < mark.length, 0 < k → ¬ mark.drop k <+: mark))

theorem cut_of_not_infix (mark text : List Char) (absent : ¬ mark <:+: text) : cut mark text = none := by
  cases found : cut mark text with
  | none => rfl
  | some parts => exact absurd ⟨parts.1, parts.2, (eq_append_of_cut mark text _ _ found).symm⟩ absent

-- A mark does not begin in a text without it, as far as it would go on into the same mark.
theorem behind_overlap (mark text other : List Char) (unbordered : Unbordered mark) (nonempty : text ≠ [])
    (absent : behind? mark text = none) : behind? mark (text ++ (mark ++ other)) = none := by
  by_cases enough : mark.length ≤ text.length
  · exact behind_within _ enough absent
  · cases found : behind? mark (text ++ (mark ++ other)) with
    | none => rfl
    | some after =>
        have whole := behind_eq_some.mp found
        have short : text.length < mark.length := Nat.lt_of_not_le enough
        obtain ⟨overlap, rest⟩ : text <+: mark :=
          List.prefix_of_prefix_length_le (List.prefix_append _ _) ⟨after, whole.symm⟩ (Nat.le_of_lt short)
        have dropped : mark.drop text.length = overlap := by rw [← rest, List.drop_left]
        have inside : mark ++ other = overlap ++ after := by
          rw [← rest, List.append_assoc, List.append_assoc, List.append_right_inj] at whole
          rw [← rest]
          simpa using whole
        refine absurd ?_ (unbordered text.length short (List.length_pos_iff.mpr nonempty))
        rw [dropped]
        refine List.prefix_of_prefix_length_le ⟨after, inside.symm⟩ (List.prefix_append mark other) ?_
        rw [← rest, List.length_append]
        omega

theorem cut_append (mark text other : List Char) (unbordered : Unbordered mark) (absent : cut mark text = none) :
    cut mark (text ++ (mark ++ other)) = some (text, other) := by
  induction text with
  | nil => exact cut_start mark other
  | cons c rest ih =>
      rw [cut] at absent
      cases here : behind? mark (c :: rest) with
      | some after =>
          rw [here] at absent
          cases absent
      | none =>
          rw [here] at absent
          have later : cut mark rest = none := by
            cases found : cut mark rest with
            | none => rfl
            | some parts =>
                rw [found] at absent
                cases absent
          have still := behind_overlap mark (c :: rest) other unbordered (List.cons_ne_nil c rest) here
          rw [List.cons_append] at still ⊢
          rw [cut, still, ih later]
          rfl

end Text

namespace Template

def CommentsEnd (text : List Char) : Prop :=
  ∀ content line, .text content line ∈ divideComments 1 text → ¬ commentOpener <:+: content

def commented (before comment after : List Char) : List Char :=
  before ++ (commentOpener ++ comment ++ commentCloser) ++ after

section Commented

variable {comment after : List Char} (closed : ¬ commentCloser <:+: comment)

include closed

theorem cutBetween_commented (before : List Char) (plain : ¬ commentOpener <:+: before) :
    cutBetween commentOpener commentCloser (commented before comment after) = some (before, comment, after) := by
  refine (cutBetween_eq_some _ _ _ _ _ _).mpr ⟨comment ++ (commentCloser ++ after), ?_, ?_⟩
  · have opened := Text.cut_append commentOpener before (comment ++ (commentCloser ++ after)) (by decide)
      (Text.cut_of_not_infix _ _ plain)
    simp only [commented, List.append_assoc] at opened ⊢
    exact opened
  · exact Text.cut_append commentCloser comment after (by decide) (Text.cut_of_not_infix _ _ closed)

-- By recursion over the comments before this one.
theorem divideComments_commented (line : Nat) (before : List Char)
    (ended : ∀ content place, .text content place ∈ divideComments line before → ¬ commentOpener <:+: content) :
    divideComments line (commented before comment after) = divideComments line before
      ++ .comment comment (line + Text.breaks before)
      :: divideComments (line + Text.breaks before + Text.breaks comment) after := by
  fun_induction divideComments line before with
  | case1 line before whole =>
      have plain : ¬ commentOpener <:+: before := by
        intro inside
        have nonempty : before.isEmpty = false := by
          cases before with
          | nil => cases List.infix_nil.mp inside
          | cons c rest => rfl
        refine ended before line ?_ inside
        rw [textPiece, nonempty]
        exact List.mem_singleton_self _
      rw [divideComments, cutBetween_commented closed before plain]
  | case2 line before early body rest found start ih =>
      have found' : cutBetween commentOpener commentCloser (commented before comment after)
          = some (early, body, commented rest comment after) := by
        have whole := eq_append_of_cutBetween _ _ _ _ _ _ found
        have again := cutBetween_before _ _ _ _ _ _ (commented rest comment after) found
        rw [whole]
        simp only [commented, List.append_assoc] at again ⊢
        exact again
      have breaks : line + Text.breaks before = start + Text.breaks body + Text.breaks rest := by
        rw [eq_append_of_cutBetween _ _ _ _ _ _ found, breaks_append, breaks_append,
          breaks_enclosed _ _ (by decide) (by decide)]
        omega
      rw [divideComments, found']
      dsimp only
      rw [ih fun content place inside => ended content place (by simp [inside]), breaks, List.append_assoc]
      rfl

end Commented

def Piece.muted : Piece → Piece
  | .comment _ line => .comment [] line
  | piece => piece

def mutePieces (pieces : List Piece) : List Piece := pieces.map Piece.muted

theorem mutePieces_append (pieces others : List Piece) :
    mutePieces (pieces ++ others) = mutePieces pieces ++ mutePieces others :=
  List.map_append

theorem mutePieces_cons (piece : Piece) (pieces : List Piece) :
    mutePieces (piece :: pieces) = piece.muted :: mutePieces pieces :=
  rfl

theorem mutePieces_textPiece (content : List Char) (line : Nat) :
    mutePieces (textPiece content line) = textPiece content line := by
  rw [textPiece]
  cases content.isEmpty <;> rfl

theorem mutePieces_divideTexts (divide : Nat → List Char → List Piece)
    (own : ∀ line text, mutePieces (divide line text) = divide line text) (pieces : List Piece) :
    mutePieces (divideTexts divide pieces) = divideTexts divide (mutePieces pieces) := by
  induction pieces with
  | nil => rfl
  | cons piece rest ih =>
      rw [divideTexts, List.flatMap_cons, mutePieces_append, mutePieces_cons, divideTexts, List.flatMap_cons]
      change _ ++ mutePieces (divideTexts divide rest) = _ ++ divideTexts divide (mutePieces rest)
      rw [ih]
      cases piece with
      | text content line => exact congrArg (· ++ _) (own line content)
      | comment | directive | echo => rfl

theorem mutePieces_divideEchoes (kind : EchoKind) (line : Nat) (text : List Char) :
    mutePieces (divideEchoes kind line text) = divideEchoes kind line text := by
  fun_induction divideEchoes kind line text with
  | case1 line text absent => exact mutePieces_textPiece text line
  | case2 line text before inside after found ih =>
      have own : mutePieces (kind.pieces before inside line) = kind.pieces before inside line := by
        rw [EchoKind.pieces]
        split
        · rw [mutePieces_append, mutePieces_textPiece, mutePieces_textPiece]
        · rw [mutePieces_append, mutePieces_textPiece]
          rfl
      rw [mutePieces_append, own, ih]

theorem mutePieces_joinTexts (pieces : List Piece) : mutePieces (joinTexts pieces) = joinTexts (mutePieces pieces) := by
  induction pieces with
  | nil => rfl
  | cons piece rest ih =>
      cases piece with
      | text content line =>
          change mutePieces (joinTexts (.text content line :: rest)) = joinTexts (.text content line :: mutePieces rest)
          rw [joinTexts, joinTexts, ← ih]
          cases joinTexts rest with
          | nil => rfl
          | cons first others => cases first <;> rfl
      | comment content line => exact congrArg (Piece.comment [] line :: ·) ih
      | directive d args line => exact congrArg (Piece.directive d args line :: ·) ih
      | echo source expression line => exact congrArg (Piece.echo source expression line :: ·) ih

theorem mutePieces_echoes (format : EchoFormat) (pieces : List Piece) :
    mutePieces (echoes format pieces) = echoes format (mutePieces pieces) := by
  simp only [echoes, mutePieces_joinTexts, mutePieces_divideTexts _ (mutePieces_divideEchoes _)]

theorem mutePieces_divideDirectives (afterWord : Bool) (line : Nat) (text : List Char) (pieces : List Piece)
    (done : divideDirectives afterWord line text = .ok pieces) : mutePieces pieces = pieces := by
  fun_induction divideDirectives afterWord line text generalizing pieces with
  | case1 afterWord line text absent =>
      obtain rfl := Except.ok.inj done
      exact mutePieces_textPiece text line
  | case2 => cases done
  | case3 afterWord line text before d afterName found start args after closed next ih =>
      cases later : divideDirectives args.isNone next after with
      | error unclosed =>
          rw [later] at done
          cases done
      | ok others =>
          rw [later] at done
          obtain rfl := Except.ok.inj done
          dsimp only
          rw [mutePieces_append, mutePieces_textPiece, mutePieces_cons, ih others later]
          rfl

theorem mutePieces_directives (pieces : List Piece) :
    (directives pieces).map mutePieces = directives (mutePieces pieces) := by
  have other (piece : Piece) (rest : List Piece) (ih : (directives rest).map mutePieces = directives (mutePieces rest)) :
      (do return piece :: (← directives rest) : Except Unclosed (List Piece)).map mutePieces
        = (do return piece.muted :: (← directives (mutePieces rest))) := by
    rw [← ih]
    cases directives rest <;> rfl
  induction pieces with
  | nil => rfl
  | cons piece rest ih =>
      cases piece with
      | text content line =>
          change (directives (.text content line :: rest)).map mutePieces = directives (.text content line :: mutePieces rest)
          rw [directives, directives, ← ih]
          cases done : divideDirectives false line content with
          | error unclosed => rfl
          | ok own =>
              cases directives rest with
              | error unclosed => rfl
              | ok others =>
                  refine congrArg Except.ok ?_
                  rw [mutePieces_append, mutePieces_divideDirectives _ _ _ own done]
      | comment content line => exact other (.comment content line) rest ih
      | directive d args line => exact other (.directive d args line) rest ih
      | echo source expression line => exact other (.echo source expression line) rest ih

theorem mutePieces_pieces (format : EchoFormat) (text : List Char) :
    (Template.pieces format text).map mutePieces
      = match directives (mutePieces (divideComments 1 text)) with
        | .ok pieces => .ok (echoes format pieces)
        | .error unclosed => .error ⟨.malformed (.unbalanced unclosed.directive), unclosed.line⟩ := by
  have whole : comments [.text text 1] = divideComments 1 text := List.append_nil _
  rw [Template.pieces, whole, ← mutePieces_directives]
  cases directives (divideComments 1 text) with
  | error unclosed => rfl
  | ok pieces => exact congrArg Except.ok (mutePieces_echoes format pieces)

theorem pieces_commented (format : EchoFormat) (before comment comment' after : List Char) (ended : CommentsEnd before)
    (closed : ¬ commentCloser <:+: comment) (closed' : ¬ commentCloser <:+: comment')
    (lines : Text.breaks comment = Text.breaks comment') :
    (Template.pieces format (commented before comment after)).map mutePieces
      = (Template.pieces format (commented before comment' after)).map mutePieces := by
  have same : mutePieces (divideComments 1 (commented before comment after))
      = mutePieces (divideComments 1 (commented before comment' after)) := by
    rw [divideComments_commented closed 1 before ended, divideComments_commented closed' 1 before ended, lines,
      mutePieces_append, mutePieces_append]
    rfl
  rw [mutePieces_pieces, mutePieces_pieces, same]

end Template

end Stencil
