import Stencil.Proofs.Expr.Passes

set_option autoImplicit false

namespace Stencil

def startOf (finish : Nat) (tokens : List Located) : Nat := (tokens.head?.map Located.offset).getD finish

def lastOf (finish : Nat) (tokens : List Located) : Nat := (tokens.getLast?.map Located.offset).getD finish

def Located.StandsIn (found : Located) (text : List Char) : Prop :=
  ∃ front c rest after, text = front ++ c :: rest ∧ Text.byteSize front = found.offset ∧
    firstToken c rest = .ok (found.token, after)

structure Placed (text : List Char) (tokens : List Located) : Prop where
  stands : ∀ found ∈ tokens, found.StandsIn text
  ordered : ∀ passed found rest, tokens = passed ++ found :: rest → found.offset < startOf (Text.byteSize text) rest

theorem byteSize_visible (c : Char) (rest : List Char) : 0 < Text.byteSize (c :: rest) := by
  have positive := c.utf8Size_pos
  rw [Text.byteSize]
  omega

theorem placed_nil (text : List Char) : Placed text [] :=
  ⟨fun _ inside => absurd inside List.not_mem_nil, fun passed _ _ same => by cases passed <;> cases same⟩

theorem placed_cons {text : List Char} {found : Located} {tokens : List Located} (stands : found.StandsIn text)
    (before : found.offset < startOf (Text.byteSize text) tokens) (behind : Placed text tokens) :
    Placed text (found :: tokens) := by
  refine ⟨List.forall_mem_cons.mpr ⟨stands, behind.stands⟩, fun passed other rest same => ?_⟩
  cases passed with
  | nil =>
      obtain ⟨rfl, rfl⟩ := List.cons.inj same
      exact before
  | cons first passed => exact behind.ordered passed other rest (List.cons.inj same).2

theorem placed_of_tokenized (front text : List Char) (offset : Nat) (tokens : List Located)
    (place : Text.byteSize front = offset) (read : Tokenized offset text tokens) :
    Placed (front ++ text) tokens ∧ offset ≤ startOf (Text.byteSize (front ++ text)) tokens := by
  induction read generalizing front with
  | ended =>
      rw [List.append_nil, place]
      exact ⟨placed_nil front, Nat.le_refl _⟩
  | @blank offset c rest tokens skipped _ ih =>
      obtain ⟨placed, further⟩ := ih (front ++ [c]) (by rw [Text.byteSize_append, place])
      rw [List.append_assoc, List.singleton_append] at placed further
      exact ⟨placed, by omega⟩
  | @token offset c passed left token tokens _ first _ ih =>
      obtain ⟨placed, further⟩ := ih (front ++ c :: passed) (by rw [Text.byteSize_append, place])
      rw [List.append_assoc, List.cons_append] at placed further
      have size := byteSize_visible c passed
      have stands : Located.StandsIn ⟨token, offset⟩ (front ++ c :: (passed ++ left)) :=
        ⟨front, c, passed ++ left, left, rfl, place, first⟩
      exact ⟨placed_cons stands (by dsimp only; omega) placed, Nat.le_refl _⟩

theorem placed_tokenize (text : List Char) (tokens : List Located) (read : tokenize text = .ok tokens) :
    Placed text tokens :=
  (placed_of_tokenized [] text 0 tokens rfl (tokenized_of_tokensFrom 0 text tokens read)).1

theorem lastOf_lt {text : List Char} {tokens : List Located} (placed : Placed text tokens) (some : tokens ≠ []) :
    lastOf (Text.byteSize text) tokens < Text.byteSize text := by
  have whole := (List.dropLast_concat_getLast some).symm
  have before := placed.ordered tokens.dropLast (tokens.getLast some) [] whole
  rw [lastOf, List.getLast?_eq_some_getLast some]
  exact before

end Stencil
