import Stencil.Proofs.Expr.Enclosed
import Stencil.Proofs.Expr.Wrapped

set_option autoImplicit false

namespace Stencil

def balance : List Token → Int
  | [] => 0
  | token :: rest => token.nesting + balance rest

theorem balance_append (first second : List Token) : balance (first ++ second) = balance first + balance second := by
  induction first with
  | nil => simp [balance]
  | cons token rest ih =>
      simp only [List.cons_append, balance, ih]
      omega

theorem nesting_eq_balance (located : List Located) : nesting located = balance (located.map Located.token) := by
  induction located with
  | nil => rfl
  | cons token rest ih => rw [nesting, ih, List.map_cons, balance]

structure Balanced (tokens : List Token) : Prop where
  opened : ∀ early, early <+: tokens → 0 ≤ balance early
  settled : balance tokens = 0

theorem tokens_of_spans {c next : Cursor} {count : Int} (spans : c.Spans next count) (passed : List Token)
    (listed : c.tokens = passed ++ next.tokens) :
    balance passed = count ∧ ∀ early, early <+: passed → early = passed ∨ 0 ≤ balance early := by
  obtain ⟨located, found, counted, free⟩ := spans
  have same : located.map Located.token = passed := by
    rw [Cursor.tokens, Cursor.tokens, found, List.map_append] at listed
    exact List.append_cancel_right listed
  subst same
  refine ⟨by rw [← nesting_eq_balance, counted], fun early within => ?_⟩
  obtain ⟨start, first, rfl⟩ := List.prefix_map_iff.mp within
  rcases free start first with rfl | enough
  · exact .inl rfl
  · exact .inr (by rwa [← nesting_eq_balance])

theorem balanced_of_parse (text : List Char) (tokens : List Token) (e : Expr) (lexes : Lexes text tokens)
    (parsed : Expr.parse text = .ok e) : Balanced tokens := by
  obtain ⟨found, peak, lexes', enough, wholly⟩ := (parse_eq_ok text e).mp parsed
  obtain rfl := lexes_unique text tokens found lexes lexes'
  obtain ⟨c, _, shows⟩ := cursor_of_lexes text tokens lexes
  have shows' : c.Shows (tokens ++ []) 0 := by rwa [List.append_nil]
  obtain ⟨⟨_, next⟩, read, rfl, reached⟩ := (wholly.reads [] (by simp [Stops]) c 0 shows').done (by omega)
  have listed : c.tokens = tokens ++ next.val.tokens := by
    rw [Cursor.tokens, Cursor.tokens, shows.listed, reached.listed, List.append_nil]
  obtain ⟨settled, free⟩ := tokens_of_spans (spans_of_derives _ _ _ _ (derives_expression c _ next read)) tokens listed
  refine ⟨fun early within => ?_, settled⟩
  rcases free early within with rfl | enough
  · exact Int.le_of_eq settled.symm
  · exact enough

theorem balanced_of_items (what : Expectation) (c : Cursor) (list : List Expr) (next : c.Later) (tokens : List Token)
    (parsed : items .closeParen what c = .ok (list, next))
    (listed : c.tokens = tokens ++ .symbol .closeParen :: next.val.tokens) : Balanced tokens := by
  have spans := spans_of_derives _ _ _ _ (derives_items .closeParen what c list next parsed)
  obtain ⟨closed, free⟩ := tokens_of_spans spans (tokens ++ [.symbol .closeParen]) (by rw [listed]; simp)
  have one : balance [.symbol .closeParen] = -1 := rfl
  have total : Phrase.nesting (.items .closeParen) = -1 := rfl
  rw [balance_append, one, total] at closed
  refine ⟨fun early within => ?_, by omega⟩
  rcases free early (within.trans (List.prefix_append _ _)) with rfl | enough
  · exact absurd (within.length_le) (by simp)
  · exact enough

theorem closed_of_balanced (first more : List Token) (balanced : Balanced first) :
    ¬ Balanced (first ++ .symbol .closeParen :: more) := by
  intro whole
  have closed := whole.opened (first ++ [.symbol .closeParen]) ⟨more, by simp⟩
  have one : balance [.symbol .closeParen] = -1 := rfl
  rw [balance_append, balanced.settled, one] at closed
  omega

theorem balanced_unique {first second rest others : List Token} (one : Balanced first) (other : Balanced second)
    (same : first ++ .symbol .closeParen :: rest = second ++ .symbol .closeParen :: others) :
    first = second ∧ rest = others := by
  rcases List.append_eq_append_iff.mp same with ⟨more, rfl, listed⟩ | ⟨more, rfl, listed⟩
  · cases more with
    | nil => exact ⟨(List.append_nil _).symm, (List.cons.inj listed).2⟩
    | cons token more =>
        obtain ⟨rfl, _⟩ := List.cons.inj listed
        exact absurd other (closed_of_balanced first more one)
  · cases more with
    | nil => exact ⟨List.append_nil _, (List.cons.inj listed).2.symm⟩
    | cons token more =>
        obtain ⟨rfl, _⟩ := List.cons.inj listed
        exact absurd one (closed_of_balanced second more other)

end Stencil
