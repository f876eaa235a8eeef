import Stencil.Config.Basic
import Stencil.Render.Renderer
import Stencil.Store.Digest
import Stencil.Store.Files

set_option autoImplicit false

namespace Stencil.Config

def renderer (config : Config) (now : Nat) : Renderer :=
  ⟨⟨config.format, Digest.key, now⟩, config.limits⟩

def files (config : Config) (tree : FileTree) : Files :=
  ⟨tree, config.views, config.cache, config.suffix⟩

def setUp (config : Config) (now : Nat) (tree : FileTree) :
    Except ViewError (Renderer × Cache Files) :=
  match config.validate with
  | .ok config => .ok (config.renderer now, ⟨config.files tree, ⟨0, 0⟩⟩)
  | .error fault => .error (.config fault)

end Stencil.Config
