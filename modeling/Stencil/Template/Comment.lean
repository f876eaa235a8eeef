import Stencil.Template.Piece

set_option autoImplicit false

namespace Stencil.Template

def commentOpener : List Char := ['\x7b', '\x7b', '-', '-']

def commentCloser : List Char := ['-', '-', '\x7d', '\x7d']

def cutBetween (opener closer text : List Char) : Option (List Char × List Char × List Char) :=
  match Text.cut opener text with
  | none => none
  | some (before, inside) =>
      (Text.cut closer inside).map fun (body, after) => (before, body, after)

theorem length_of_cutBetween {opener closer text before body after : List Char}
    (found : cutBetween opener closer text = some (before, body, after)) :
    text.length = before.length + opener.length + body.length + closer.length + after.length := by
  unfold cutBetween at found
  split at found
  · simp at found
  · rename_i early inside first
    simp only [Option.map_eq_some_iff, Prod.mk.injEq] at found
    obtain ⟨⟨content, rest⟩, second, rfl, rfl, rfl⟩ := found
    have := Text.length_of_cut first
    have := Text.length_of_cut second
    simp only at *
    omega

def divideComments (line : Nat) (text : List Char) : List Piece :=
  match _found : cutBetween commentOpener commentCloser text with
  | none => textPiece text line
  | some (before, body, after) =>
      let start := line + Text.breaks before
      textPiece before line ++ .comment body start :: divideComments (start + Text.breaks body) after
termination_by text.length
decreasing_by
  have := length_of_cutBetween _found
  simp only [commentOpener, List.length_cons, List.length_nil] at this
  omega

def comments (pieces : List Piece) : List Piece := divideTexts divideComments pieces

end Stencil.Template
