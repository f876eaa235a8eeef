import Stencil.Program.Assembly
import Stencil.Template.Echo
import Stencil.Template.Invocation

set_option autoImplicit false

namespace Stencil

open Template

def Template.pieces (format : EchoFormat) (text : List Char) : Except Fault (List Piece) :=
  match directives (comments [.text text 1]) with
  | .ok pieces => .ok (echoes format pieces)
  | .error unclosed => .error ⟨.malformed (.unbalanced unclosed.directive), unclosed.line⟩

def Program.compile (format : EchoFormat) (template : String) (text : String) :
    Except Fault Program := do
  Program.assemble template (← Template.pieces format text.toList)

end Stencil
