import Stencil.Proofs.Template.Coverage

set_option autoImplicit false

namespace Stencil.Template

namespace Piece

def Covers : Piece → List Char → Prop
  | .text content _, written => written = content
  | .comment content _, written => written = commentOpener ++ content ++ commentCloser
  | .directive d args _, written => ∃ gap, written = '@' :: (d.name.toList ++ gap ++ args.getD [])
  | .echo source _ _, written => written = source

def Stands (first : Nat) (text : List Char) (piece : Piece) : Prop :=
  ∃ before written after, text = before ++ written ++ after ∧ piece.Covers written ∧
    piece.line = first + Text.breaks before

theorem line_le (first : Nat) (text : List Char) (piece : Piece) (stands : piece.Stands first text) :
    piece.line ≤ first + Text.breaks text := by
  obtain ⟨before, written, after, rfl, _, place⟩ := stands
  rw [place, breaks_append, breaks_append]
  omega

theorem covers_of_fills {shows : List Char → List Char → Prop} {piece : Piece} {range : List Char}
    (other : ¬ piece.IsText) (fills : piece.Fills shows range) : piece.Covers range := by
  cases piece with
  | text content line => exact absurd ⟨content, line, rfl⟩ other
  | comment | echo => exact fills
  | directive d args line =>
      cases args with
      | none => exact ⟨[], by rw [fills, List.append_nil, Option.getD_none, List.append_nil]⟩
      | some args =>
          obtain ⟨_, gap, _, written⟩ := fills
          exact ⟨gap, written⟩

end Piece

def EchoKind.Makes (kind : EchoKind) : Piece → Prop
  | .echo source expression _ =>
      ∃ body, source = kind.opener ++ body ++ kind.closer ∧ expression = kind.expression body
  | _ => True

theorem makes_textPiece (kind : EchoKind) (content : List Char) (line : Nat) :
    ∀ piece ∈ textPiece content line, kind.Makes piece := by
  intro piece inside
  rw [textPiece] at inside
  split at inside
  · simp at inside
  · rw [List.mem_singleton.mp inside]
    trivial

theorem makes_divideEchoes (kind : EchoKind) (first : Nat) (text : List Char) :
    ∀ piece ∈ divideEchoes kind first text, kind.Makes piece := by
  fun_induction divideEchoes kind first text with
  | case1 first text => exact makes_textPiece kind text first
  | case2 first text before body after found ih =>
      intro piece inside
      rcases List.mem_append.mp inside with here | later
      · simp only [EchoKind.pieces] at here
        split at here
        · rcases List.mem_append.mp here with early | source
          · exact makes_textPiece kind _ _ piece early
          · exact makes_textPiece kind _ _ piece source
        · rcases List.mem_append.mp here with early | echo
          · exact makes_textPiece kind _ _ piece early
          · rw [List.mem_singleton.mp echo]
            exact ⟨body, rfl, rfl⟩
      · exact ih piece later

def Piece.ComesFrom (pieces : List Piece) (piece : Piece) : Prop :=
  piece ∈ pieces ∨ ∃ content line, piece = .text content line ∧
    ∀ c ∈ content, ∃ part place, .text part place ∈ pieces ∧ c ∈ part

theorem comesFrom_cons (first : Piece) (rest : List Piece) (piece : Piece) (origin : piece.ComesFrom rest) :
    piece.ComesFrom (first :: rest) := by
  rcases origin with same | ⟨content, line, rfl, each⟩
  · exact Or.inl (List.mem_cons_of_mem _ same)
  · refine Or.inr ⟨content, line, rfl, fun c inside => ?_⟩
    obtain ⟨part, place, among, inside⟩ := each c inside
    exact ⟨part, place, List.mem_cons_of_mem _ among, inside⟩

theorem comesFrom_joinTexts (pieces : List Piece) : ∀ piece ∈ joinTexts pieces, piece.ComesFrom pieces := by
  fun_induction joinTexts pieces with
  | case1 => simp
  | case2 content line rest more place others joined ih =>
      rw [joined, List.forall_mem_cons] at ih
      refine List.forall_mem_cons.mpr ⟨Or.inr ⟨_, _, rfl, fun c inside => ?_⟩, fun piece inside => ?_⟩
      · rcases List.mem_append.mp inside with here | later
        · exact ⟨content, line, List.mem_cons_self .., here⟩
        · rcases ih.1 with same | ⟨_, _, same, each⟩
          · exact ⟨more, place, List.mem_cons_of_mem _ same, later⟩
          · obtain ⟨rfl, rfl⟩ := Piece.text.inj same
            obtain ⟨part, start, among, inside⟩ := each c later
            exact ⟨part, start, List.mem_cons_of_mem _ among, inside⟩
      · exact comesFrom_cons _ rest piece (ih.2 piece inside)
  | case3 content line rest alone ih =>
      exact List.forall_mem_cons.mpr ⟨Or.inl (List.mem_cons_self ..), fun piece inside =>
        comesFrom_cons _ rest piece (ih piece inside)⟩
  | case4 first rest _ ih =>
      exact List.forall_mem_cons.mpr ⟨Or.inl (List.mem_cons_self ..), fun piece inside =>
        comesFrom_cons _ rest piece (ih piece inside)⟩

theorem chars_of_unhides {range content : List Char} (shown : Unhides range content) : ∀ c ∈ content, c ∈ range := by
  induction shown with
  | plain absent => exact fun c inside => inside
  | hidden found later ih =>
      intro c inside
      rw [eq_append_of_cutBetween _ _ _ _ _ _ found]
      rcases List.mem_append.mp inside with early | later
      · apply List.mem_append_left
        rcases List.mem_append.mp early with before | source
        · exact List.mem_append_left _ (List.mem_append_left _ before)
        · exact List.mem_append_right _ source
      · exact List.mem_append_right _ (ih c later)

theorem stands_pieces (format : EchoFormat) (text : List Char) (pieces : List Piece)
    (read : Template.pieces format text = .ok pieces) :
    ∀ piece ∈ pieces, piece.Stands 1 text ∨
      ∃ content line, piece = .text content line ∧ ∀ c ∈ content, c ∈ text := by
  obtain ⟨divided, done, rfl⟩ := pieces_eq format text pieces read
  have account := accounts_echoed format text divided (accounts_divided text divided done)
  intro piece inside
  obtain ⟨before, range, after, whole, fills, place⟩ := accounts_mem account piece inside
  by_cases isText : piece.IsText
  · obtain ⟨content, line, rfl⟩ := isText
    refine Or.inr ⟨content, line, rfl, fun c shown => ?_⟩
    rw [whole]
    exact List.mem_append_left _ (List.mem_append_right _ (chars_of_unhides fills c shown))
  · exact Or.inl ⟨before, range, after, whole, Piece.covers_of_fills isText fills, place⟩

theorem line_of_pieces (format : EchoFormat) (text : List Char) (pieces : List Piece)
    (read : Template.pieces format text = .ok pieces) :
    ∀ piece ∈ pieces, (∃ content line, piece = .text content line) ∨ piece.line ≤ 1 + Text.breaks text := by
  intro piece inside
  rcases stands_pieces format text pieces read piece inside with stands | ⟨content, line, same, _⟩
  · exact Or.inr (Piece.line_le 1 text piece stands)
  · exact Or.inl ⟨content, line, same⟩

end Stencil.Template
