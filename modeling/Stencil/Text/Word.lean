import Stencil.Text.Blank
import Stencil.Text.WordTable

set_option autoImplicit false

namespace Stencil.Text

-- The comparison with ASCII first keeps the usual case away from the table.
def isWord (c : Char) : Bool := c.isAlphanum || c = '_' || inRanges wordRanges c.toNat

end Stencil.Text
