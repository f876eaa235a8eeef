import Stencil.Proofs.Expr.Written

set_option autoImplicit false

namespace Stencil.Expr

mutual
def nodes : Expr → Nat
  | .literal _ => 1
  | .var _ => 1
  | .array items => allNodes items + 1
  | .member target _ => target.nodes + 1
  | .index target key => target.nodes + key.nodes + 1
  | .unary _ operand => operand.nodes + 1
  | .binary _ left right => left.nodes + right.nodes + 1
  | .coalesce left right => left.nodes + right.nodes + 1
  | .choice test positive negative => test.nodes + positive.nodes + negative.nodes + 1
  | .elvis test otherwise => test.nodes + otherwise.nodes + 1
  | .call _ args => allNodes args + 1
  | .isset target => target.nodes + 1
  | .empty target => target.nodes + 1

def allNodes : List Expr → Nat
  | [] => 0
  | e :: rest => e.nodes + allNodes rest
end

def linksAt (place rank links : Nat) : Nat := if rank = place then links else 0

def links : Expr → Nat
  | .member target _ => linksAt 9 target.rank target.links + 1
  | .index target _ => linksAt 9 target.rank target.links + 1
  | .binary op left _ => linksAt op.level.rank left.rank left.links + 1
  | _ => 0

def raised (loosest rank peak : Nat) : Nat := if rank < loosest then peak + 1 else peak

-- The levels opened below the one that the whole expression opens.
mutual
def peak : Expr → Nat
  | .literal _ => 0
  | .var _ => 0
  | .array items => greatestPeak items
  | .member target _ => max (raised 9 target.rank target.peak) (linksAt 9 target.rank target.links + 1)
  | .index target key =>
      max (raised 9 target.rank target.peak) (linksAt 9 target.rank target.links + 1 + (key.peak + 1))
  | .unary _ operand => raised 8 operand.rank operand.peak + 1
  | .binary op left right =>
      max (raised op.level.rank left.rank left.peak)
        (linksAt op.level.rank left.rank left.links + 1 + raised (op.level.rank + 1) right.rank right.peak)
  | .coalesce left right => max (raised 2 left.rank left.peak) (raised 1 right.rank right.peak + 1)
  | .choice test positive negative =>
      max (raised 1 test.rank test.peak) (max (positive.peak + 1) (negative.peak + 1))
  | .elvis test otherwise => max (raised 1 test.rank test.peak) (otherwise.peak + 1)
  | .call _ args => greatestPeak args
  | .isset target => target.peak + 1
  | .empty target => target.peak + 1

def greatestPeak : List Expr → Nat
  | [] => 0
  | e :: rest => max (e.peak + 1) (greatestPeak rest)
end

theorem raised_le (loosest rank peak : Nat) : raised loosest rank peak ≤ peak + 1 := by
  rw [raised]
  split <;> omega

theorem linksAt_le (place rank links : Nat) : linksAt place rank links ≤ links := by
  rw [linksAt]
  split <;> omega

theorem links_lt_nodes (e : Expr) : e.links < e.nodes := by
  induction e using links.induct with
  | case1 target field ih | case2 target key ih =>
      have within := linksAt_le 9 target.rank target.links
      simp only [links, nodes]
      omega
  | case3 op left right ih =>
      have within := linksAt_le op.level.rank left.rank left.links
      simp only [links, nodes]
      omega
  | case4 e _ _ _ =>
      cases e <;> simp_all [links, nodes]

mutual
theorem peak_nodes (e : Expr) : e.peak + 2 ≤ 2 * e.nodes := by
  cases e with
  | literal | var => exact Nat.le_refl 2
  | array items | call function items =>
      have inner := greatestPeak_nodes items
      simp only [peak, nodes]
      omega
  | member target field =>
      have inner := peak_nodes target
      have opened := raised_le 9 target.rank target.peak
      have kept := linksAt_le 9 target.rank target.links
      have fewer := links_lt_nodes target
      simp only [peak, nodes]
      omega
  | index target key =>
      have inner := peak_nodes target
      have other := peak_nodes key
      have opened := raised_le 9 target.rank target.peak
      have kept := linksAt_le 9 target.rank target.links
      have fewer := links_lt_nodes target
      simp only [peak, nodes]
      omega
  | unary op operand =>
      have inner := peak_nodes operand
      have opened := raised_le 8 operand.rank operand.peak
      simp only [peak, nodes]
      omega
  | binary op left right =>
      have inner := peak_nodes left
      have other := peak_nodes right
      have opened := raised_le op.level.rank left.rank left.peak
      have further := raised_le (op.level.rank + 1) right.rank right.peak
      have kept := linksAt_le op.level.rank left.rank left.links
      have fewer := links_lt_nodes left
      simp only [peak, nodes]
      omega
  | coalesce left right =>
      have inner := peak_nodes left
      have other := peak_nodes right
      have opened := raised_le 2 left.rank left.peak
      have further := raised_le 1 right.rank right.peak
      simp only [peak, nodes]
      omega
  | choice test positive negative =>
      have inner := peak_nodes test
      have second := peak_nodes positive
      have third := peak_nodes negative
      have opened := raised_le 1 test.rank test.peak
      simp only [peak, nodes]
      omega
  | elvis test otherwise =>
      have inner := peak_nodes test
      have second := peak_nodes otherwise
      have opened := raised_le 1 test.rank test.peak
      simp only [peak, nodes]
      omega
  | isset target | empty target =>
      have inner := peak_nodes target
      simp only [peak, nodes]
      omega

theorem greatestPeak_nodes (items : List Expr) : greatestPeak items ≤ 2 * allNodes items := by
  cases items with
  | nil => exact Nat.le_refl 0
  | cons e rest =>
      have first := peak_nodes e
      have more := greatestPeak_nodes rest
      simp only [greatestPeak, allNodes]
      omega
end

end Stencil.Expr
