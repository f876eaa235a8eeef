import Stencil.Template.Comment
import Stencil.Template.Fallback

set_option autoImplicit false

namespace Stencil.Template

def hole : List Char := ['\x7b', '\x7d']

structure EchoFormat where
  before : List Char
  after : List Char
deriving DecidableEq

namespace EchoFormat

def escaping : EchoFormat := ⟨['e', '('], [')']⟩

def ofText? (text : List Char) : Option EchoFormat :=
  match Text.cut hole text with
  | none => none
  | some (before, after) => if (Text.cut hole after).isNone then some ⟨before, after⟩ else none

def text (format : EchoFormat) : List Char := format.before ++ hole ++ format.after

def apply (format : EchoFormat) (expression : List Char) : List Char :=
  format.before ++ expression ++ format.after

end EchoFormat

-- A kind of echo: its marks, and what its inside stands for. An echo that can be hidden is text
-- behind an `@`, which is dropped.
structure EchoKind where
  opener : List Char
  closer : List Char
  hidden : Bool
  expression : List Char → List Char
  opener_nonempty : 0 < opener.length := by decide

namespace EchoKind

def escaped : EchoKind where
  opener := ['\x7b', '\x7b', '\x7b']
  closer := ['\x7d', '\x7d', '\x7d']
  hidden := false
  expression inside := EchoFormat.escaping.apply (Text.trim inside)

def raw : EchoKind where
  opener := ['\x7b', '!', '!']
  closer := ['!', '!', '\x7d']
  hidden := false
  expression inside := Text.trim inside

def regular (format : EchoFormat) : EchoKind where
  opener := ['\x7b', '\x7b']
  closer := ['\x7d', '\x7d']
  hidden := true
  expression inside := format.apply (expandFallback (Text.trim inside))

end EchoKind

def EchoKind.pieces (kind : EchoKind) (before inside : List Char) (line : Nat) : List Piece :=
  let source := kind.opener ++ inside ++ kind.closer
  let start := line + Text.breaks before
  if kind.hidden && before.getLast? = some '@' then
    textPiece before.dropLast line ++ textPiece source start
  else textPiece before line ++ [.echo source (kind.expression inside) start]

def divideEchoes (kind : EchoKind) (line : Nat) (text : List Char) : List Piece :=
  match _found : cutBetween kind.opener kind.closer text with
  | none => textPiece text line
  | some (before, inside, after) =>
      kind.pieces before inside line
        ++ divideEchoes kind (line + Text.breaks before + Text.breaks inside) after
termination_by text.length
decreasing_by
  have := length_of_cutBetween _found
  have := kind.opener_nonempty
  omega

def joinTexts : List Piece → List Piece
  | [] => []
  | .text content line :: rest =>
      match joinTexts rest with
      | .text more _ :: others => .text (content ++ more) line :: others
      | others => .text content line :: others
  | piece :: rest => piece :: joinTexts rest

-- Three braces are looked for first, so that they do not pass for two.
def echoes (format : EchoFormat) (pieces : List Piece) : List Piece :=
  let withEscaped := divideTexts (divideEchoes .escaped) pieces
  let withRaw := divideTexts (divideEchoes .raw) withEscaped
  joinTexts (divideTexts (divideEchoes (.regular format)) withRaw)

end Stencil.Template
