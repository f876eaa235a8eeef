import Stencil.Proofs.Expr.Builds

set_option autoImplicit false

namespace Stencil

namespace Expr

mutual
def height : Expr → Nat
  | .literal _ => 1
  | .var _ => 1
  | .array items => greatestHeight items + 1
  | .member target _ => target.height + 1
  | .index target key => max target.height key.height + 1
  | .unary _ operand => operand.height + 1
  | .binary _ left right => max left.height right.height + 1
  | .coalesce left right => max left.height right.height + 1
  | .choice test positive negative => max test.height (max positive.height negative.height) + 1
  | .elvis test otherwise => max test.height otherwise.height + 1
  | .call _ args => greatestHeight args + 1
  | .isset target => target.height + 1
  | .empty target => target.height + 1

def greatestHeight : List Expr → Nat
  | [] => 0
  | e :: rest => max e.height (greatestHeight rest)
end

theorem greatestHeight_le (items : List Expr) (limit : Nat) (each : ∀ e ∈ items, e.height ≤ limit) :
    greatestHeight items ≤ limit := by
  induction items with
  | nil => exact Nat.zero_le limit
  | cons e rest ih =>
      rw [List.forall_mem_cons] at each
      exact Nat.max_le.mpr ⟨each.1, ih each.2⟩

end Expr

-- The tallest tree that can be read where so many levels are left. A group or a list takes one level; fields
-- and each of the six kinds of binary operators add as many levels as are left, one on top of the other;
-- a coalescing operator and a choice add one each.
def tallest : Nat → Nat
  | 0 => 0
  | 1 => 1
  | room + 2 => tallest (room + 1) + 7 * (room + 1) + 3

theorem tallest_succ (room : Nat) : tallest room + 1 + 7 * room ≤ tallest (room + 1) := by
  cases room with
  | zero => decide
  | succ room =>
      simp only [tallest]
      omega

theorem tallest_mono {less more : Nat} (within : less ≤ more) : tallest less ≤ tallest more := by
  induction more with
  | zero => exact Nat.le_of_eq (congrArg tallest (Nat.le_zero.mp within))
  | succ more ih =>
      by_cases same : less = more + 1
      · exact Nat.le_of_eq (congrArg tallest same)
      · have step := tallest_succ more
        have before := ih (by omega)
        omega

def tallestChain (kinds room : Nat) : Nat := tallest room + 1 + (kinds + 1) * room

theorem tallestChain_succ (kinds room : Nat) : tallestChain (kinds + 1) room = tallestChain kinds room + room := by
  rw [tallestChain, tallestChain, Nat.succ_mul]
  omega

theorem tallestChain_mono (kinds : Nat) {less more : Nat} (within : less ≤ more) :
    tallestChain kinds less ≤ tallestChain kinds more := by
  have trees := tallest_mono within
  have chains := Nat.mul_le_mul_left (kinds + 1) within
  rw [tallestChain, tallestChain]
  omega

namespace Phrase

def base (room : Nat) : Phrase → Nat
  | .links _ tighter count _ => tallestChain tighter.length (room + count)
  | .selections count _ => tallest (room + count) + 1
  | _ => 0

def limit (room : Nat) : Phrase → Nat
  | .expression | .items _ | .moreItems _ => tallest room
  | .ternary => tallest (room + 1)
  | .coalesce => tallestChain Level.all.length room + min room 1
  | .chain levels => tallestChain levels.length room
  | .links _ tighter count _ => tallestChain (tighter.length + 1) (room + count)
  | .unary | .access => tallestChain 0 room
  | .selections count _ => tallestChain 0 (room + count)
  | .primary => tallest room + 1

end Phrase

theorem tallest_choice (room : Nat) (some : 0 < room) :
    tallest (room + 1) = tallestChain Level.all.length room + 2 := by
  cases room with
  | zero => omega
  | succ room =>
      simp only [tallest, tallestChain, Level.all, List.length_cons, List.length_nil]
      omega

theorem coalesce_le_tallest (room : Nat) :
    tallestChain Level.all.length room + min room 1 ≤ tallest (room + 1) := by
  by_cases some : 0 < room
  · rw [tallest_choice room some]
    omega
  · rw [Nat.eq_zero_of_not_pos some]
    decide

theorem tallest_lt_chain (kinds room : Nat) : tallest room < tallestChain kinds room := by
  rw [tallestChain]
  omega

theorem height_of_builds (phrase : Phrase) (room : Nat) (result : List Expr) (built : Builds phrase room result)
    (found : ∀ e ∈ phrase.found?, e.height ≤ phrase.base room + phrase.held) :
    ∀ e ∈ result, e.height ≤ phrase.limit room := by
  induction built with
  | expression _ ih => exact ih (by simp [Phrase.found?])
  | @test room _ _ ih =>
      have inner := ih (by simp [Phrase.found?])
      simp only [List.forall_mem_singleton, Phrase.limit] at inner ⊢
      exact Nat.le_trans inner (coalesce_le_tallest room)
  | present _ ih =>
      have inner := ih (by simp [Phrase.found?])
      simp only [List.forall_mem_singleton, Phrase.limit] at inner ⊢
      exact Nat.le_add_right_of_le inner
  | operand _ ih | plain _ ih => exact ih (by simp [Phrase.found?])
  | @elvis room _ _ _ behind first second =>
      have test := first (by simp [Phrase.found?])
      have otherwise := second (by simp [Phrase.found?])
      simp only [List.forall_mem_singleton, Phrase.limit, Expr.height] at test otherwise ⊢
      rw [tallest_choice room (room_pos behind)]
      have chains := tallest_lt_chain Level.all.length room
      omega
  | @choice room _ _ _ _ behind _ first second third =>
      have test := first (by simp [Phrase.found?])
      have positive := second (by simp [Phrase.found?])
      have negative := third (by simp [Phrase.found?])
      simp only [List.forall_mem_singleton, Phrase.limit, Expr.height] at test positive negative ⊢
      rw [tallest_choice room (room_pos behind)]
      have chains := tallest_lt_chain Level.all.length room
      omega
  | @coalesce room _ _ _ _ first second =>
      have onLeft := first (by simp [Phrase.found?])
      have onRight := second (by simp [Phrase.found?])
      have inside := coalesce_le_tallest room
      have chains := tallest_lt_chain Level.all.length (room + 1)
      simp only [List.forall_mem_singleton, Phrase.limit, Expr.height] at onLeft onRight ⊢
      omega
  | level _ _ start more | access _ _ start more =>
      have first := List.forall_mem_singleton.mp (start (by simp [Phrase.found?]))
      refine more fun e same => ?_
      obtain rfl := Option.some.inj same
      exact first
  | @unlinked room _ tighter count target =>
      have before := found target rfl
      simp only [List.forall_mem_singleton, Phrase.limit, Phrase.base, Phrase.held, tallestChain_succ] at before ⊢
      omega
  | @unselected room count target =>
      have before := found target rfl
      simp only [List.forall_mem_singleton, Phrase.limit, Phrase.base, Phrase.held, tallestChain] at before ⊢
      omega
  | @link room _ tighter count _ target _ _ _ _ first more =>
      have inner := first (by simp [Phrase.found?])
      have chains := tallestChain_mono tighter.length (show room ≤ room + 1 + count by omega)
      have before := found target rfl
      have same : room + (count + 1) = room + 1 + count := by omega
      have rest := more fun e here => by
        obtain rfl := Option.some.inj here
        simp only [List.forall_mem_singleton, Phrase.limit, Phrase.base, Phrase.held, Expr.height, same] at inner before ⊢
        omega
      simpa only [Phrase.limit, same] using rest
  | @unary room _ _ _ ih =>
      have operand := ih (by simp [Phrase.found?])
      have inside := tallest_mono (show room ≤ room + 1 by omega)
      simp only [List.forall_mem_singleton, Phrase.limit, Expr.height, tallestChain] at operand ⊢
      omega
  | @member room count target _ _ _ more =>
      have before := found target rfl
      have same : room + (count + 1) = room + 1 + count := by omega
      have rest := more fun e here => by
        obtain rfl := Option.some.inj here
        simp only [Phrase.base, Phrase.held, Expr.height, same] at before ⊢
        omega
      simpa only [Phrase.limit, same] using rest
  | @index room count target _ _ _ _ inner more =>
      have key := inner (by simp [Phrase.found?])
      have trees := tallest_mono (show room ≤ room + 1 + count by omega)
      have before := found target rfl
      have same : room + (count + 1) = room + 1 + count := by omega
      have rest := more fun e here => by
        obtain rfl := Option.some.inj here
        simp only [List.forall_mem_singleton, Phrase.limit, Phrase.base, Phrase.held, Expr.height, same] at key before ⊢
        omega
      simpa only [Phrase.limit, same] using rest
  | literal | var => exact List.forall_mem_singleton.mpr (Nat.le_add_left 1 _)
  | group _ ih =>
      have inner := ih (by simp [Phrase.found?])
      rw [List.forall_mem_singleton] at inner ⊢
      exact Nat.le_succ_of_le inner
  | array _ ih | call _ ih =>
      rw [List.forall_mem_singleton]
      exact Nat.succ_le_succ (Expr.greatestHeight_le _ _ (ih (by simp [Phrase.found?])))
  | isset _ ih | empty _ ih =>
      have inner := ih (by simp [Phrase.found?])
      rw [List.forall_mem_singleton] at inner ⊢
      exact Nat.succ_le_succ inner
  | noItems | noMoreItems => simp
  | items _ _ start more | moreItems _ _ start more =>
      have first := List.forall_mem_singleton.mp (start (by simp [Phrase.found?]))
      exact List.forall_mem_cons.mpr ⟨first, more (by simp [Phrase.found?])⟩

end Stencil
