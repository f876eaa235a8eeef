import Stencil.Proofs.Expr.Height

set_option autoImplicit false

namespace Stencil

namespace Expr

mutual
def nesting : Expr → Nat
  | .literal _ => 1
  | .var _ => 1
  | .array items => deepest items + 1
  | .member target _ => max target.nesting 2
  | .index target key => max target.nesting (key.nesting + 1)
  | .unary _ operand => operand.nesting + 1
  | .binary _ left right => max left.nesting (right.nesting + 1)
  | .coalesce left right => max left.nesting (right.nesting + 1)
  | .choice test positive negative => max test.nesting (max positive.nesting negative.nesting + 1)
  | .elvis test otherwise => max test.nesting (otherwise.nesting + 1)
  | .call _ args => deepest args + 1
  | .isset target => target.nesting + 1
  | .empty target => target.nesting + 1

def deepest : List Expr → Nat
  | [] => 0
  | e :: rest => max e.nesting (deepest rest)
end

mutual
def size : Expr → Nat
  | .literal _ => 1
  | .var _ => 1
  | .array items => allSizes items + 1
  | .member target _ => target.size + 2
  | .index target key => target.size + key.size + 1
  | .unary _ operand => operand.size + 1
  | .binary _ left right => left.size + right.size + 1
  | .coalesce left right => left.size + right.size + 1
  | .choice test positive negative => test.size + positive.size + negative.size + 1
  | .elvis test otherwise => test.size + otherwise.size + 1
  | .call _ args => allSizes args + 1
  | .isset target => target.size + 1
  | .empty target => target.size + 1

def allSizes : List Expr → Nat
  | [] => 0
  | e :: rest => e.size + allSizes rest
end

mutual
def Leaning : Expr → Prop
  | .literal _ => True
  | .var _ => True
  | .array items => AllLeaning items
  | .member target _ => target.height ≤ 1
  | .index target key => target.height ≤ key.height ∧ key.Leaning
  | .unary _ operand => operand.Leaning
  | .binary _ left right => left.height ≤ right.height ∧ right.Leaning
  | .coalesce left right => left.height ≤ right.height ∧ right.Leaning
  | .choice test positive negative =>
      test.height ≤ max positive.height negative.height ∧ positive.Leaning ∧ negative.Leaning
  | .elvis test otherwise => test.height ≤ otherwise.height ∧ otherwise.Leaning
  | .call _ args => AllLeaning args
  | .isset target => target.Leaning
  | .empty target => target.Leaning

def AllLeaning : List Expr → Prop
  | [] => True
  | e :: rest => e.Leaning ∧ AllLeaning rest
end

theorem size_pos (e : Expr) : 0 < e.size := by
  cases e <;> exact Nat.succ_pos _

theorem deepest_le (items : List Expr) (limit : Nat) (each : ∀ e ∈ items, e.nesting ≤ limit) :
    deepest items ≤ limit := by
  induction items with
  | nil => exact Nat.zero_le limit
  | cons e rest ih =>
      rw [List.forall_mem_cons] at each
      exact Nat.max_le.mpr ⟨each.1, ih each.2⟩

-- A level that the cap does not count costs two nodes.
mutual
theorem twice_height_le (e : Expr) : 2 * e.height ≤ e.size + e.nesting := by
  cases e with
  | literal | var => exact Nat.le_refl 2
  | array items | call _ items =>
      have inside := twice_greatestHeight_le items
      simp only [height, size, nesting]
      omega
  | member target field =>
      have front := twice_height_le target
      simp only [height, size, nesting]
      omega
  | unary _ target | isset target | empty target =>
      have inside := twice_height_le target
      simp only [height, size, nesting]
      omega
  | index left right | binary _ left right | coalesce left right | elvis left right =>
      have front := twice_height_le left
      have behind := twice_height_le right
      have leftSize := left.size_pos
      have rightSize := right.size_pos
      simp only [height, size, nesting]
      omega
  | choice test positive negative =>
      have front := twice_height_le test
      have first := twice_height_le positive
      have second := twice_height_le negative
      have positiveSize := positive.size_pos
      simp only [height, size, nesting]
      omega
termination_by sizeOf e

theorem twice_greatestHeight_le (items : List Expr) : 2 * greatestHeight items ≤ allSizes items + deepest items := by
  cases items with
  | nil => exact Nat.le_refl 0
  | cons e rest =>
      have first := twice_height_le e
      have others := twice_greatestHeight_le rest
      simp only [greatestHeight, allSizes, deepest]
      omega
termination_by sizeOf items
end

mutual
theorem height_of_leaning (e : Expr) (leaning : e.Leaning) : e.height ≤ e.nesting := by
  cases e with
  | literal | var => exact Nat.le_refl 1
  | array items | call _ items => exact Nat.succ_le_succ (greatestHeight_of_leaning items leaning)
  | member target field =>
      rw [height, nesting]
      exact Nat.le_trans (Nat.succ_le_succ leaning) (Nat.le_max_right _ _)
  | unary _ target | isset target | empty target => exact Nat.succ_le_succ (height_of_leaning target leaning)
  | index left right | binary _ left right | coalesce left right | elvis left right =>
      have behind := height_of_leaning right leaning.2
      have front := leaning.1
      simp only [height, nesting]
      omega
  | choice test positive negative =>
      obtain ⟨front, leaningPositive, leaningNegative⟩ := leaning
      have first := height_of_leaning positive leaningPositive
      have second := height_of_leaning negative leaningNegative
      simp only [height, nesting]
      omega
termination_by sizeOf e

theorem greatestHeight_of_leaning (items : List Expr) (leaning : AllLeaning items) :
    greatestHeight items ≤ deepest items := by
  cases items with
  | nil => exact Nat.le_refl 0
  | cons e rest =>
      have first := height_of_leaning e leaning.1
      have others := greatestHeight_of_leaning rest leaning.2
      simp only [greatestHeight, deepest]
      omega
termination_by sizeOf items
end

end Expr

def Phrase.levels (room : Nat) : Phrase → Nat
  | .expression | .items _ | .moreItems _ => room
  | phrase => room + phrase.held + 1

theorem nesting_of_builds (phrase : Phrase) (room : Nat) (result : List Expr) (built : Builds phrase room result)
    (found : ∀ e ∈ phrase.found?, e.nesting ≤ room + phrase.held + 1) :
    ∀ e ∈ result, e.nesting ≤ phrase.levels room := by
  induction built with
  | expression _ ih | test _ ih | present _ ih | operand _ ih | plain _ ih => exact ih (by simp [Phrase.found?])
  | elvis _ _ first second | coalesce _ _ first second =>
      have front := first (by simp [Phrase.found?])
      have behind := second (by simp [Phrase.found?])
      simp only [List.forall_mem_singleton, Phrase.levels, Phrase.held, Expr.nesting] at front behind ⊢
      omega
  | choice _ _ _ first second third =>
      have front := first (by simp [Phrase.found?])
      have positive := second (by simp [Phrase.found?])
      have negative := third (by simp [Phrase.found?])
      simp only [List.forall_mem_singleton, Phrase.levels, Phrase.held, Expr.nesting] at front positive negative ⊢
      omega
  | level _ _ start more | access _ _ start more =>
      have first := List.forall_mem_singleton.mp (start (by simp [Phrase.found?]))
      refine more fun e same => ?_
      obtain rfl := Option.some.inj same
      exact first
  | unlinked | unselected => exact List.forall_mem_singleton.mpr (found _ rfl)
  | link _ _ first more =>
      have behind := first (by simp [Phrase.found?])
      have front := found _ rfl
      have rest := more fun e here => by
        obtain rfl := Option.some.inj here
        simp only [List.forall_mem_singleton, Phrase.levels, Phrase.held, Expr.nesting] at behind front ⊢
        omega
      simp only [List.forall_mem_singleton, Phrase.levels, Phrase.held] at rest ⊢
      omega
  | unary _ ih =>
      have inside := ih (by simp [Phrase.found?])
      simp only [List.forall_mem_singleton, Phrase.levels, Phrase.held, Expr.nesting] at inside ⊢
      omega
  | member _ more =>
      have front := found _ rfl
      have rest := more fun e here => by
        obtain rfl := Option.some.inj here
        simp only [Phrase.held, Expr.nesting] at front ⊢
        omega
      simp only [List.forall_mem_singleton, Phrase.levels, Phrase.held] at rest ⊢
      omega
  | index _ _ inner more =>
      have behind := inner (by simp [Phrase.found?])
      have front := found _ rfl
      have rest := more fun e here => by
        obtain rfl := Option.some.inj here
        simp only [List.forall_mem_singleton, Phrase.levels, Phrase.held, Expr.nesting] at behind front ⊢
        omega
      simp only [List.forall_mem_singleton, Phrase.levels, Phrase.held] at rest ⊢
      omega
  | literal | var => exact List.forall_mem_singleton.mpr (Nat.le_add_left 1 _)
  | group _ ih =>
      have inside := ih (by simp [Phrase.found?])
      rw [List.forall_mem_singleton] at inside ⊢
      exact Nat.le_succ_of_le inside
  | array _ ih | call _ ih =>
      rw [List.forall_mem_singleton]
      exact Nat.succ_le_succ (Expr.deepest_le _ _ (ih (by simp [Phrase.found?])))
  | isset _ ih | empty _ ih =>
      have inside := ih (by simp [Phrase.found?])
      rw [List.forall_mem_singleton] at inside ⊢
      exact Nat.succ_le_succ inside
  | noItems | noMoreItems => simp
  | items _ _ start more | moreItems _ _ start more =>
      have first := List.forall_mem_singleton.mp (start (by simp [Phrase.found?]))
      exact List.forall_mem_cons.mpr ⟨first, more (by simp [Phrase.found?])⟩

end Stencil
