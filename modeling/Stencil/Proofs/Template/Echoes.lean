import Stencil.Proofs.Template.Pieces

set_option autoImplicit false

namespace Stencil.Template

-- A piece that is no echo is of any kinds.
def Piece.MadeBy (kinds : List EchoKind) (piece : Piece) : Prop :=
  ∀ source expression line, piece = .echo source expression line → ∃ kind ∈ kinds, kind.Makes piece

theorem madeBy_text (kinds : List EchoKind) (content : List Char) (line : Nat) :
    ∀ piece ∈ textPiece content line, piece.MadeBy kinds := by
  intro piece inside source expression place same
  rw [textPiece] at inside
  split at inside
  · cases inside
  · rw [List.mem_singleton.mp inside] at same
    cases same

theorem madeBy_more (kind : EchoKind) (kinds : List EchoKind) (piece : Piece) (made : piece.MadeBy kinds) :
    piece.MadeBy (kind :: kinds) := by
  intro source expression line same
  obtain ⟨found, among, makes⟩ := made source expression line same
  exact ⟨found, List.mem_cons_of_mem _ among, makes⟩

theorem madeBy_divideEchoes (kind : EchoKind) (kinds : List EchoKind) (pieces : List Piece)
    (made : ∀ piece ∈ pieces, piece.MadeBy kinds) :
    ∀ piece ∈ divideTexts (divideEchoes kind) pieces, piece.MadeBy (kind :: kinds) := by
  intro piece inside
  obtain ⟨whole, among, part⟩ := List.mem_flatMap.mp inside
  cases whole with
  | text content line =>
      intro source expression place same
      exact ⟨kind, List.mem_cons_self .., makes_divideEchoes kind line content piece part⟩
  | comment | directive | echo =>
      rw [List.mem_singleton.mp part]
      exact madeBy_more kind kinds _ (made _ among)

theorem madeBy_comments (line : Nat) (text : List Char) :
    ∀ piece ∈ divideComments line text, piece.MadeBy [] := by
  fun_induction divideComments line text with
  | case1 line text => exact madeBy_text [] text line
  | case2 line text before body after found start ih =>
      intro piece inside
      rcases List.mem_append.mp inside with early | later
      · exact madeBy_text [] before line piece early
      · rcases List.mem_cons.mp later with rfl | later
        · intro source expression place same
          cases same
        · exact ih piece later

theorem madeBy_divideDirectives (afterWord : Bool) (line : Nat) (text : List Char) (pieces : List Piece)
    (divided : divideDirectives afterWord line text = .ok pieces) : ∀ piece ∈ pieces, piece.MadeBy [] := by
  fun_induction divideDirectives afterWord line text generalizing pieces with
  | case1 afterWord line text =>
      obtain rfl := Except.ok.inj divided
      exact madeBy_text [] text line
  | case2 => cases divided
  | case3 afterWord line text before d afterName found start args after closed next ih =>
      intro piece inside
      cases more : divideDirectives args.isNone next after with
      | error unclosed => simp [more, Except.map] at divided
      | ok others =>
          rw [more] at divided
          obtain rfl := Except.ok.inj divided
          rcases List.mem_append.mp inside with early | later
          · exact madeBy_text [] before line piece early
          · rcases List.mem_cons.mp later with rfl | later
            · intro source expression place same
              cases same
            · exact ih others more piece later

theorem madeBy_directives (pieces divided : List Piece) (made : ∀ piece ∈ pieces, piece.MadeBy [])
    (done : directives pieces = .ok divided) : ∀ piece ∈ divided, piece.MadeBy [] := by
  induction pieces generalizing divided with
  | nil =>
      obtain rfl := Except.ok.inj done
      simp
  | cons whole rest ih =>
      rw [List.forall_mem_cons] at made
      cases whole with
      | text content line =>
          rw [directives] at done
          obtain ⟨parts, here, done⟩ := (bind_eq_ok _ _ _).mp done
          obtain ⟨others, more, done⟩ := (bind_eq_ok _ _ _).mp done
          obtain rfl := Except.ok.inj done
          intro piece inside
          rcases List.mem_append.mp inside with part | later
          · exact madeBy_divideDirectives false line content parts here piece part
          · exact ih others made.2 more piece later
      | comment | directive | echo =>
          rw [directives] at done
          · obtain ⟨others, more, done⟩ := (bind_eq_ok _ _ _).mp done
            obtain rfl := Except.ok.inj done
            exact List.forall_mem_cons.mpr ⟨made.1, ih others made.2 more⟩
          · simp

theorem madeBy_pieces (format : EchoFormat) (text : List Char) (pieces : List Piece)
    (read : Template.pieces format text = .ok pieces) :
    ∀ piece ∈ pieces, piece.MadeBy [.regular format, .raw, .escaped] := by
  obtain ⟨divided, done, rfl⟩ := pieces_eq format text pieces read
  have start : ∀ piece ∈ comments [.text text 1], piece.MadeBy [] := by
    intro piece inside
    rw [comments, divideTexts, List.flatMap_singleton] at inside
    exact madeBy_comments 1 text piece inside
  have plain := madeBy_directives _ divided start done
  have made := madeBy_divideEchoes (.regular format) _ _ (madeBy_divideEchoes .raw _ _
    (madeBy_divideEchoes .escaped _ _ plain))
  intro piece inside source expression line same
  rcases comesFrom_joinTexts _ piece inside with among | ⟨_, _, text, _⟩
  · exact made piece among source expression line same
  · rw [text] at same
    cases same

theorem escaped_of_pieces (text : List Char) (pieces : List Piece)
    (rawless : ∀ before after, text ≠ before ++ EchoKind.raw.opener ++ after)
    (read : Template.pieces .escaping text = .ok pieces) (source expression : List Char) (line : Nat)
    (inside : .echo source expression line ∈ pieces) : ∃ rest, expression = 'e' :: '(' :: rest := by
  obtain ⟨kind, among, body, written, made⟩ :=
    madeBy_pieces .escaping text pieces read _ inside source expression line rfl
  simp only [List.mem_cons, List.not_mem_nil, or_false] at among
  rcases among with rfl | rfl | rfl
  · exact ⟨_, made⟩
  · rcases stands_pieces .escaping text pieces read _ inside with stands | ⟨_, _, same, _⟩
    · obtain ⟨before, found, after, whole, covers, _⟩ := stands
      rw [covers, written] at whole
      refine absurd ?_ (rawless before (body ++ EchoKind.raw.closer ++ after))
      rw [whole]
      simp only [List.append_assoc]
    · cases same
  · exact ⟨_, made⟩

end Stencil.Template
