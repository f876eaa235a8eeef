import Stencil.Template.Directive
import Stencil.Text.Scan

set_option autoImplicit false

namespace Stencil.Template

-- `line` is the line on which the piece starts. Arguments keep their parentheses.
inductive Piece where
  | text (content : List Char) (line : Nat)
  | comment (content : List Char) (line : Nat)
  | directive (directive : Directive) (args : Option (List Char)) (line : Nat)
  | echo (source expression : List Char) (line : Nat)
deriving DecidableEq

def textPiece (content : List Char) (line : Nat) : List Piece :=
  if content.isEmpty then [] else [.text content line]

def divideTexts (divide : Nat → List Char → List Piece) (pieces : List Piece) : List Piece :=
  pieces.flatMap fun
    | .text content line => divide line content
    | other => [other]

end Stencil.Template
