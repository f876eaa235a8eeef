import Stencil.Render.Renderer

set_option autoImplicit false

namespace Stencil

structure Sink where
  written : String
  isOpen : Bool
deriving DecidableEq, Repr

namespace Sink

def empty : Sink := ⟨"", true⟩

-- A sink that is not open takes no text, so that only the empty one can still be written.
def write (text : String) (sink : Sink) : Except ViewError Sink :=
  if text = "" then .ok sink
  else if sink.isOpen then .ok { sink with written := sink.written ++ text }
  else .error .output

end Sink

namespace Renderer

variable {σ : Type} [Store σ]

def renderInto (renderer : Renderer) (name : String) (data : Fields) (sink : Sink) :
    Action (Cache σ) Sink := do
  match sink.write (← renderer.render name data) with
  | .ok sink => return sink
  | .error error => throw error

end Renderer

end Stencil
