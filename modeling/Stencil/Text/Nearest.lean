set_option autoImplicit false

namespace Stencil.Text

def nextDistances (x : Char) (left : Nat) : List Nat → List Char → List Nat
  | diagonal :: above :: rest, y :: ys =>
      let here := min (min (left + 1) (above + 1)) (diagonal + if x = y then 0 else 1)
      here :: nextDistances x here (above :: rest) ys
  | _, _ => []

def distance (source target : List Char) : Nat :=
  let step (row : List Nat) (x : Char) : List Nat :=
    let first := row.headD 0 + 1
    first :: nextDistances x first row target
  (source.foldl step (List.range (target.length + 1))).getLastD 0

-- Longer names may differ in more places. The length is that of the UTF-8 form.
def tolerance (name : String) : Nat := max 1 (min 3 (name.utf8ByteSize / 3))

def nearest (name : String) (candidates : List String) : List String :=
  let rated := candidates.map fun candidate => (distance name.toList candidate.toList, candidate)
  let close := rated.filter fun (far, _) => far ≤ tolerance name
  let ordered := close.mergeSort fun (m, a) (n, b) => m < n || (m == n && (a < b || a == b))
  (ordered.take 3).map Prod.snd

end Stencil.Text
