import Stencil.Proofs.Expr.Reread

set_option autoImplicit false

namespace Stencil

namespace Cursor

variable {c next : Cursor} {token : Token}

def tokens (c : Cursor) : List Token := c.rest.map Located.token

theorem tokens_of_passes (passes : c.Passes token next) : c.tokens = token :: next.tokens := by
  obtain ⟨offset, rest, listed, rfl⟩ := passes
  rw [tokens, listed]
  rfl

theorem tokens_of_descend (inner : c.Here) (step : c.descend = .ok inner) : inner.val.tokens = c.tokens := by
  rw [(c.deeper_of_descend inner step).2]
  rfl

theorem tokens_ascend (levels : Nat) : (c.ascend levels).tokens = c.tokens := rfl

theorem fails_of_pass {α : Type} (test : Token → Option α) (step : c.pass test = none) :
    ∀ token ∈ c.tokens.head?, test token = none := by
  intro token first
  obtain ⟨rest, last, finish, depth⟩ := c
  cases rest with
  | nil => cases first
  | cons found rest =>
      obtain rfl := Option.some.inj first
      exact Option.map_eq_none_iff.mp step

theorem differs_of_eat (symbol : Symbol) (step : c.eat symbol = none) :
    ∀ token ∈ c.tokens.head?, token ≠ .symbol symbol := by
  rintro token first rfl
  have failed := fails_of_pass _ (Option.map_eq_none_iff.mp step) _ first
  simp at failed

end Cursor

-- Whether other tokens end what stands in front of them as these did.
def Follows (tail other : List Token) : Prop := tail.head? = other.head? ∨ Stops 0 other

section

variable {tail other : List Token}

theorem follows_cons (token : Token) (rest others : List Token) (same : tail = token :: rest) :
    Follows tail (token :: others) := by
  rw [same]
  exact .inl rfl

theorem follows_append (passed : List Token) (follows : Follows tail other) :
    Follows (passed ++ tail) (passed ++ other) := by
  cases passed with
  | nil => exact follows
  | cons token rest => exact .inl rfl

theorem first_of_follows {P : Token → Prop} (follows : Follows tail other)
    (unbound : ∀ token, token.binds = none → P token) (holds : ∀ token ∈ tail.head?, P token) :
    ∀ token ∈ other.head?, P token := by
  intro token first
  rcases follows with same | stops
  · exact holds token (same ▸ first)
  · refine unbound token ?_
    cases bound : token.binds with
    | none => rfl
    | some rank => exact absurd (stops token first rank bound) (Nat.not_lt_zero _)

theorem differs_of_follows (symbol : Symbol) (binds : (Token.symbol symbol).binds ≠ none) (follows : Follows tail other)
    (differs : ∀ token ∈ tail.head?, token ≠ .symbol symbol) : ∀ token ∈ other.head?, token ≠ .symbol symbol := by
  refine first_of_follows follows ?_ differs
  rintro _ unbound rfl
  exact binds unbound

theorem first_of_append {passed : List Token} {P : Token → Prop} (some : passed ≠ [])
    (holds : ∀ token ∈ (passed ++ tail).head?, P token) : ∀ token ∈ (passed ++ other).head?, P token := by
  cases passed with
  | nil => exact absurd rfl some
  | cons token rest => exact holds

end

-- Between the two places the parser reads `a`, which it reads wherever these tokens stand in front of tokens that
-- end it as well.
def ReadsOn {α : Type} (read : (c : Cursor) → Parsed α c) (c : Cursor) (a : α) (next : Cursor) : Prop :=
  ∃ passed peak, c.tokens = passed ++ next.tokens ∧ passed ≠ [] ∧
    ∀ tail, Follows next.tokens tail → Parses read peak passed a tail

def AppliesOn (read : (c : Cursor) → Parsed Expr c)
    (more : Nat → Expr → (c : Cursor) → Except ParseError (Expr × c.NotEarlier)) (count : Nat) (left : Expr)
    (c : Cursor) (e : Expr) (next : Cursor) : Prop :=
  ∃ passed peak, c.tokens = passed ++ next.tokens ∧
    ∀ tail, Follows next.tokens tail → ∀ tokens first, Leads read more first count tokens left (passed ++ tail) →
      Parses read (max first peak) (tokens ++ passed) e tail

theorem callOf_anywhere (name : String) (offset other : Nat) (args : List Expr) (e : Expr)
    (made : callOf name offset args = .ok e) : callOf name other args = .ok e := by
  rcases args with _ | ⟨target, _ | ⟨second, rest⟩⟩
  · simp only [callOf] at made ⊢
    split at made
    · cases made
    · rename_i free
      rw [if_neg free]
      exact made
  · exact made
  · simp only [callOf] at made ⊢
    split at made
    · cases made
    · rename_i free
      rw [if_neg free]
      exact made

theorem constant_anywhere (name : String) (offset other : Nat) (e : Expr) (made : constant name offset = .ok e) :
    constant name other = .ok e := by
  by_cases listed : Text.lowerAscii name = "true" ∨ Text.lowerAscii name = "false" ∨ Text.lowerAscii name = "null"
  · rcases listed with same | same | same
    all_goals
      simp only [constant, same] at made ⊢
      exact made
  · simp only [not_or] at listed
    simp only [constant, if_neg listed.1, if_neg listed.2.1, if_neg listed.2.2] at made
    cases made

mutual
theorem readsOn_expression (c : Cursor) (e : Expr) (next : c.Later) (parsed : expression c = .ok (e, next)) :
    ReadsOn expression c e next.val := by
  rw [expression] at parsed
  obtain ⟨⟨inner, here⟩, down, parsed⟩ := (bind_eq_ok _ _ _).mp parsed
  obtain ⟨⟨found, after⟩, first, parsed⟩ := (bind_eq_ok _ _ _).mp parsed
  obtain ⟨rfl, rfl⟩ := Prod.mk.inj (Except.ok.inj parsed)
  obtain ⟨passed, peak, listed, some, reads⟩ := readsOn_ternary inner found after first
  rw [c.tokens_of_descend _ down] at listed
  exact ⟨passed, peak + 1, listed, some, fun tail follows => parses_expression (reads tail follows)⟩
termination_by 16 * c.left + 13
decreasing_by omega

theorem readsOn_ternary (c : Cursor) (e : Expr) (next : c.Later) (parsed : ternary c = .ok (e, next)) :
    ReadsOn ternary c e next.val := by
  rw [ternary] at parsed
  obtain ⟨⟨test, afterTest, _⟩, first, parsed⟩ := (bind_eq_ok _ _ _).mp parsed
  obtain ⟨passed, peak, listed, some, reads⟩ := readsOn_coalesce c test _ first
  dsimp only at parsed listed reads
  split at parsed
  · rename_i unasked
    obtain ⟨rfl, rfl⟩ := Prod.mk.inj (Except.ok.inj parsed)
    refine ⟨passed, peak, listed, some, fun tail follows => parses_test (reads tail follows) ?_⟩
    exact differs_of_follows _ (by decide) follows (Cursor.differs_of_eat _ unasked)
  · rename_i branches _ mark
    have mark := Cursor.tokens_of_passes (afterTest.passes_of_eat _ _ mark)
    split at parsed
    · rename_i afterColon _ colon
      have colon := Cursor.tokens_of_passes (branches.passes_of_eat _ _ colon)
      obtain ⟨⟨otherwise, last, _⟩, second, parsed⟩ := (bind_eq_ok _ _ _).mp parsed
      obtain ⟨rfl, rfl⟩ := Prod.mk.inj (Except.ok.inj parsed)
      obtain ⟨passed', peak', listed', some', reads'⟩ := readsOn_expression afterColon otherwise _ second
      refine ⟨_, _, ?_, ?_, fun tail follows => parses_elvis (reads _ ?_) (reads' tail follows)⟩
      · rw [listed, mark, colon, listed']
        simp
      · simp
      · exact follows_cons _ _ _ mark
    · rename_i uncoloned
      obtain ⟨⟨positive, afterPositive, _⟩, second, parsed⟩ := (bind_eq_ok _ _ _).mp parsed
      dsimp only at parsed
      obtain ⟨⟨afterColon, _⟩, colon, parsed⟩ := (bind_eq_ok _ _ _).mp parsed
      obtain ⟨⟨negative, last, _⟩, third, parsed⟩ := (bind_eq_ok _ _ _).mp parsed
      obtain ⟨rfl, rfl⟩ := Prod.mk.inj (Except.ok.inj parsed)
      have colon := Cursor.tokens_of_passes (afterPositive.passes_of_expect _ _ _ colon)
      obtain ⟨passed', peak', listed', some', reads'⟩ := readsOn_expression branches positive _ second
      obtain ⟨passed'', peak'', listed'', some'', reads''⟩ := readsOn_expression afterColon negative _ third
      refine ⟨_, _, ?_, ?_, fun tail follows => parses_choice (reads _ ?_) (reads' _ ?_) (reads'' tail follows) ?_⟩
      · rw [listed, mark, listed', colon, listed'']
        simp
      · simp
      · exact follows_cons _ _ _ mark
      · exact follows_cons _ _ _ colon
      · have starts := Cursor.differs_of_eat _ uncoloned
        rw [listed'] at starts
        exact first_of_append some' starts
termination_by 16 * c.left + 12
decreasing_by all_goals omega

theorem readsOn_coalesce (c : Cursor) (e : Expr) (next : c.Later) (parsed : coalesce c = .ok (e, next)) :
    ReadsOn coalesce c e next.val := by
  rw [coalesce] at parsed
  obtain ⟨⟨left, afterLeft, _⟩, first, parsed⟩ := (bind_eq_ok _ _ _).mp parsed
  obtain ⟨passed, peak, listed, some, reads⟩ := readsOn_chain Level.all c left _ first
  dsimp only at parsed listed reads
  split at parsed
  · rename_i unmarked
    obtain ⟨rfl, rfl⟩ := Prod.mk.inj (Except.ok.inj parsed)
    refine ⟨passed, peak, listed, some, fun tail follows => parses_present (reads tail follows) ?_⟩
    exact differs_of_follows _ (by decide) follows (Cursor.differs_of_eat _ unmarked)
  · rename_i afterMark _ mark
    have mark := Cursor.tokens_of_passes (afterLeft.passes_of_eat _ _ mark)
    obtain ⟨⟨inner, _⟩, down, parsed⟩ := (bind_eq_ok _ _ _).mp parsed
    obtain ⟨⟨right, last, _⟩, second, parsed⟩ := (bind_eq_ok _ _ _).mp parsed
    obtain ⟨rfl, rfl⟩ := Prod.mk.inj (Except.ok.inj parsed)
    obtain ⟨passed', peak', listed', _, reads'⟩ := readsOn_coalesce inner right _ second
    rw [afterMark.tokens_of_descend _ down] at listed'
    refine ⟨_, _, ?_, ?_, fun tail follows => parses_coalesce (reads _ ?_) (reads' tail follows)⟩
    · rw [listed, mark, listed', Cursor.tokens_ascend, List.append_assoc, List.cons_append]
    · simp
    · exact follows_cons _ _ _ mark
termination_by 16 * c.left + 11
decreasing_by
  · simp [Level.all]
  · omega

theorem readsOn_chain (levels : List Level) (c : Cursor) (e : Expr) (next : c.Later)
    (parsed : chain levels c = .ok (e, next)) : ReadsOn (chain levels) c e next.val := by
  match levels, parsed with
  | [], parsed =>
      rw [chain] at parsed
      rw [chain_nil]
      exact readsOn_unary c e next parsed
  | level :: tighter, parsed =>
      rw [chain] at parsed
      obtain ⟨⟨first, afterFirst, _⟩, start, parsed⟩ := (bind_eq_ok _ _ _).mp parsed
      obtain ⟨⟨last, after, _⟩, more, parsed⟩ := (bind_eq_ok _ _ _).mp parsed
      obtain ⟨rfl, rfl⟩ := Prod.mk.inj (Except.ok.inj parsed)
      obtain ⟨passed, peak, listed, some, reads⟩ := readsOn_chain tighter c first _ start
      obtain ⟨passed', peak', listed', applies⟩ := appliesOn_links level tighter 0 first afterFirst last _ more
      dsimp only at listed reads
      rw [listed'] at listed reads
      refine ⟨passed ++ passed', max peak peak', ?_, by simp [some], fun tail follows => ?_⟩
      · rw [listed, List.append_assoc]
      · exact applies tail follows passed peak (leads_level level tighter (reads _ (follows_append passed' follows)))
termination_by 16 * c.left + 3 + levels.length
decreasing_by all_goals simp only [List.length_cons, List.length_nil]; omega

theorem appliesOn_links (level : Level) (tighter : List Level) (count : Nat) (left : Expr) (c : Cursor)
    (e : Expr) (next : c.NotEarlier) (parsed : links level tighter count left c = .ok (e, next)) :
    AppliesOn (chain (level :: tighter)) (links level tighter) count left c e next.val := by
  rw [links] at parsed
  split at parsed
  · rename_i unlinked
    obtain ⟨rfl, rfl⟩ := Prod.mk.inj (Except.ok.inj parsed)
    refine ⟨[], 0, rfl, fun tail follows tokens first leads => ?_⟩
    rw [Nat.max_zero, List.append_nil]
    refine parses_links level tighter leads ?_
    rw [Cursor.tokens_ascend] at follows
    refine first_of_follows follows (fun token unbound => ?_) (Cursor.fails_of_pass _ unlinked)
    cases known : level.ofToken? token with
    | none => rfl
    | some op => cases unbound.symm.trans (binds_ofToken level token op known)
  · rename_i op afterOp _ mark
    obtain ⟨token, mark, known⟩ := c.passes_of_pass _ _ _ mark
    have mark := Cursor.tokens_of_passes mark
    obtain ⟨⟨inner, _⟩, down, parsed⟩ := (bind_eq_ok _ _ _).mp parsed
    obtain ⟨⟨right, afterRight, _⟩, operand, parsed⟩ := (bind_eq_ok _ _ _).mp parsed
    obtain ⟨⟨last, after, _⟩, more, parsed⟩ := (bind_eq_ok _ _ _).mp parsed
    obtain ⟨rfl, rfl⟩ := Prod.mk.inj (Except.ok.inj parsed)
    obtain ⟨passed, peak, listed, _, reads⟩ := readsOn_chain tighter inner right _ operand
    obtain ⟨passed', peak', listed', applies⟩ :=
      appliesOn_links level tighter (count + 1) (.binary op left right) afterRight last _ more
    rw [afterOp.tokens_of_descend _ down] at listed
    dsimp only at listed reads
    rw [listed'] at listed reads
    refine ⟨token :: (passed ++ passed'), max (count + 1 + peak) peak', ?_, fun tail follows tokens first leads => ?_⟩
    · rw [mark, listed, List.cons_append, List.append_assoc]
    · have right := reads _ (follows_append passed' follows)
      rw [List.cons_append, List.append_assoc] at leads
      have whole := applies tail follows _ _ (leads_link level tighter op token known leads right)
      rw [List.append_assoc, List.cons_append] at whole
      rwa [← Nat.max_assoc]
termination_by 16 * c.left + 3 + tighter.length
decreasing_by all_goals omega

theorem readsOn_unary (c : Cursor) (e : Expr) (next : c.Later) (parsed : unary c = .ok (e, next)) :
    ReadsOn unary c e next.val := by
  rw [unary] at parsed
  split at parsed
  · rename_i plain
    obtain ⟨passed, peak, listed, some, reads⟩ := readsOn_access c e next parsed
    have begins := Cursor.fails_of_pass _ plain
    rw [listed] at begins
    exact ⟨passed, peak, listed, some, fun tail follows => parses_plain (reads tail follows) (first_of_append some begins)⟩
  · rename_i op afterOp _ mark
    obtain ⟨token, mark, known⟩ := c.passes_of_pass _ _ _ mark
    have mark := Cursor.tokens_of_passes mark
    obtain ⟨⟨inner, _⟩, down, parsed⟩ := (bind_eq_ok _ _ _).mp parsed
    obtain ⟨⟨operand, last, _⟩, first, parsed⟩ := (bind_eq_ok _ _ _).mp parsed
    obtain ⟨rfl, rfl⟩ := Prod.mk.inj (Except.ok.inj parsed)
    obtain ⟨passed, peak, listed, _, reads⟩ := readsOn_unary inner operand _ first
    rw [afterOp.tokens_of_descend _ down] at listed
    refine ⟨token :: passed, peak + 1, ?_, List.cons_ne_nil _ _, fun tail follows => ?_⟩
    · rw [mark, listed]
      rfl
    · exact parses_unary op token known (reads tail follows)
termination_by 16 * c.left + 2
decreasing_by all_goals omega

theorem readsOn_access (c : Cursor) (e : Expr) (next : c.Later) (parsed : access c = .ok (e, next)) :
    ReadsOn access c e next.val := by
  rw [access] at parsed
  obtain ⟨⟨target, afterTarget, _⟩, start, parsed⟩ := (bind_eq_ok _ _ _).mp parsed
  obtain ⟨⟨last, after, _⟩, more, parsed⟩ := (bind_eq_ok _ _ _).mp parsed
  obtain ⟨rfl, rfl⟩ := Prod.mk.inj (Except.ok.inj parsed)
  obtain ⟨passed, peak, listed, some, reads⟩ := readsOn_primary c target _ start
  obtain ⟨passed', peak', listed', applies⟩ := appliesOn_selections 0 target afterTarget last _ more
  dsimp only at listed reads
  rw [listed'] at listed reads
  refine ⟨passed ++ passed', max peak peak', ?_, by simp [some], fun tail follows => ?_⟩
  · rw [listed, List.append_assoc]
  · exact applies tail follows passed peak (leads_primary (reads _ (follows_append passed' follows)))
termination_by 16 * c.left + 1
decreasing_by all_goals omega

theorem appliesOn_selections (count : Nat) (target : Expr) (c : Cursor) (e : Expr) (next : c.NotEarlier)
    (parsed : selections count target c = .ok (e, next)) : AppliesOn access selections count target c e next.val := by
  rw [selections] at parsed
  split at parsed
  · rename_i afterMark _ mark
    obtain ⟨token, mark, known⟩ := c.passes_of_pass _ _ _ mark
    have mark := Cursor.tokens_of_passes mark
    obtain ⟨⟨inner, _⟩, down, parsed⟩ := (bind_eq_ok _ _ _).mp parsed
    obtain ⟨⟨field, afterField, _⟩, named, parsed⟩ := (bind_eq_ok _ _ _).mp parsed
    obtain ⟨⟨last, after, _⟩, more, parsed⟩ := (bind_eq_ok _ _ _).mp parsed
    obtain ⟨rfl, rfl⟩ := Prod.mk.inj (Except.ok.inj parsed)
    obtain ⟨name, named, same⟩ := Cursor.passes_of_fieldName _ _ _ named
    have named := Cursor.tokens_of_passes named
    rw [afterMark.tokens_of_descend _ down] at named
    obtain ⟨passed, peak, listed, applies⟩ :=
      appliesOn_selections (count + 1) (.member target field) afterField last _ more
    refine ⟨token :: name :: passed, max (count + 1) peak, ?_, fun tail follows tokens first leads => ?_⟩
    · rw [mark, named]
      exact congrArg (fun rest => token :: name :: rest) listed
    · have whole := applies tail follows _ _ (leads_selection token name field known same leads)
      rw [List.append_assoc] at whole
      rwa [← Nat.max_assoc]
  · split at parsed
    · rename_i afterMark _ mark
      have mark := Cursor.tokens_of_passes (c.passes_of_eat _ _ mark)
      obtain ⟨⟨inner, _⟩, down, parsed⟩ := (bind_eq_ok _ _ _).mp parsed
      obtain ⟨⟨key, afterKey, _⟩, first, parsed⟩ := (bind_eq_ok _ _ _).mp parsed
      obtain ⟨⟨afterBracket, _⟩, closed, parsed⟩ := (bind_eq_ok _ _ _).mp parsed
      obtain ⟨⟨last, after, _⟩, more, parsed⟩ := (bind_eq_ok _ _ _).mp parsed
      obtain ⟨rfl, rfl⟩ := Prod.mk.inj (Except.ok.inj parsed)
      have closed := Cursor.tokens_of_passes (afterKey.passes_of_expect _ _ _ closed)
      obtain ⟨others, peak, listed, _, reads⟩ := readsOn_expression inner key _ first
      rw [afterMark.tokens_of_descend _ down] at listed
      obtain ⟨passed, peak', listed', applies⟩ :=
        appliesOn_selections (count + 1) (.index target key) afterBracket last _ more
      refine ⟨.symbol .openBracket :: (others ++ .symbol .closeBracket :: passed), max (count + 1 + peak) peak', ?_,
        fun tail follows tokens first leads => ?_⟩
      · rw [mark, listed]
        dsimp only
        rw [closed, listed', List.cons_append, List.append_assoc, List.cons_append]
      · rw [List.cons_append, List.append_assoc, List.cons_append] at leads
        have key := reads (.symbol .closeBracket :: (passed ++ tail)) (follows_cons _ _ _ closed)
        have whole := applies tail follows _ _ (leads_index leads key)
        rw [List.append_assoc, List.cons_append, List.append_assoc] at whole
        rwa [← Nat.max_assoc]
    · rename_i unselected _ unopened
      obtain ⟨rfl, rfl⟩ := Prod.mk.inj (Except.ok.inj parsed)
      refine ⟨[], 0, rfl, fun tail follows tokens first leads => ?_⟩
      rw [Cursor.tokens_ascend] at follows
      rw [Nat.max_zero, List.append_nil]
      refine parses_selections leads fun token here => ⟨?_, ?_⟩
      · refine first_of_follows (P := (isSelection · = none)) follows (fun token unbound => ?_)
          (Cursor.fails_of_pass _ unselected) token here
        cases known : isSelection token with
        | none => rfl
        | some => cases unbound.symm.trans (binds_isSelection token known)
      · exact differs_of_follows _ (by decide) follows (Cursor.differs_of_eat _ unopened) token here
termination_by 16 * c.left
decreasing_by all_goals omega

theorem readsOn_primary (c : Cursor) (e : Expr) (next : c.Later) (parsed : primary c = .ok (e, next)) :
    ReadsOn primary c e next.val := by
  rw [primary] at parsed
  split at parsed
  · simp at parsed
  · rename_i found after _ mark
    have mark := Cursor.tokens_of_passes (c.passes_of_next _ _ mark)
    dsimp only at mark parsed
    split at parsed
    · rename_i n same
      rw [same] at mark
      obtain ⟨rfl, rfl⟩ := Prod.mk.inj (Except.ok.inj parsed)
      exact ⟨[.int n], 0, mark, List.cons_ne_nil _ _, fun tail _ => parses_integer n⟩
    · rename_i x same
      rw [same] at mark
      split at parsed
      · rename_i n finite
        obtain ⟨rfl, rfl⟩ := Prod.mk.inj (Except.ok.inj parsed)
        exact ⟨[.float x], 0, mark, List.cons_ne_nil _ _, fun tail _ => parses_double x n finite⟩
      · simp at parsed
    · rename_i s same
      rw [same] at mark
      obtain ⟨rfl, rfl⟩ := Prod.mk.inj (Except.ok.inj parsed)
      exact ⟨[.text s], 0, mark, List.cons_ne_nil _ _, fun tail _ => parses_text s⟩
    · rename_i name same
      rw [same] at mark
      obtain ⟨rfl, rfl⟩ := Prod.mk.inj (Except.ok.inj parsed)
      exact ⟨[.variableName name], 0, mark, List.cons_ne_nil _ _, fun tail _ => parses_variable name⟩
    · rename_i same
      rw [same] at mark
      obtain ⟨⟨inner, afterInner, _⟩, first, parsed⟩ := (bind_eq_ok _ _ _).mp parsed
      obtain ⟨⟨last, _⟩, closed, parsed⟩ := (bind_eq_ok _ _ _).mp parsed
      obtain ⟨rfl, rfl⟩ := Prod.mk.inj (Except.ok.inj parsed)
      have closed := Cursor.tokens_of_passes (afterInner.passes_of_expect _ _ _ closed)
      obtain ⟨passed, peak, listed, _, reads⟩ := readsOn_expression after inner _ first
      refine ⟨.symbol .openParen :: (passed ++ [.symbol .closeParen]), peak, ?_, List.cons_ne_nil _ _, fun tail _ => ?_⟩
      · rw [mark, listed]
        dsimp only
        rw [closed, List.cons_append, List.append_assoc, List.singleton_append]
      · exact parses_group (reads _ (follows_cons _ _ _ closed))
    · rename_i same
      rw [same] at mark
      obtain ⟨⟨members, last, _⟩, first, parsed⟩ := (bind_eq_ok _ _ _).mp parsed
      obtain ⟨rfl, rfl⟩ := Prod.mk.inj (Except.ok.inj parsed)
      obtain ⟨passed, peak, listed, _, reads⟩ :=
        readsOn_items .closeBracket .commaOrBracket ⟨rfl, rfl, by decide⟩ after members _ first
      refine ⟨.symbol .openBracket :: passed, peak, ?_, List.cons_ne_nil _ _, fun tail follows => ?_⟩
      · rw [mark, listed, List.cons_append]
      · exact parses_array (reads tail follows)
    · rename_i name same
      rw [same] at mark
      split at parsed
      · rename_i inner _ opened
        have opened := Cursor.tokens_of_passes (after.passes_of_eat _ _ opened)
        obtain ⟨⟨args, last, _⟩, first, parsed⟩ := (bind_eq_ok _ _ _).mp parsed
        obtain ⟨called, made, parsed⟩ := (bind_eq_ok _ _ _).mp parsed
        obtain ⟨rfl, rfl⟩ := Prod.mk.inj (Except.ok.inj parsed)
        obtain ⟨passed, peak, listed, _, reads⟩ :=
          readsOn_items .closeParen .commaOrParen ⟨rfl, rfl, by decide⟩ inner args _ first
        refine ⟨.word name :: .symbol .openParen :: passed, peak, ?_, List.cons_ne_nil _ _, fun tail follows => ?_⟩
        · rw [mark, opened]
          exact congrArg (fun rest => .word name :: .symbol .openParen :: rest) listed
        · exact parses_call name (fun offset => callOf_anywhere name _ offset args called made) (reads tail follows)
      · rename_i uncalled
        obtain ⟨value, made, parsed⟩ := (bind_eq_ok _ _ _).mp parsed
        obtain ⟨rfl, rfl⟩ := Prod.mk.inj (Except.ok.inj parsed)
        refine ⟨[.word name], 0, mark, List.cons_ne_nil _ _, fun tail follows => ?_⟩
        refine parses_constant name (fun offset => constant_anywhere name _ offset value made) ?_
        exact differs_of_follows _ (by decide) follows (Cursor.differs_of_eat _ uncalled)
    · simp at parsed
termination_by 16 * c.left
decreasing_by all_goals omega

theorem readsOn_items (close : Symbol) (what : Expectation) (closes : Closes close) (c : Cursor) (list : List Expr)
    (next : c.Later) (parsed : items close what c = .ok (list, next)) : ReadsOn (items close what) c list next.val := by
  rw [items] at parsed
  split at parsed
  · rename_i last closed
    obtain ⟨rfl, rfl⟩ := Prod.mk.inj (Except.ok.inj parsed)
    have closed := Cursor.tokens_of_passes (c.passes_of_eat _ _ closed)
    exact ⟨[.symbol close], 0, closed, List.cons_ne_nil _ _, fun tail _ => parses_noItems close what⟩
  · rename_i open_
    obtain ⟨⟨first, afterFirst, _⟩, start, parsed⟩ := (bind_eq_ok _ _ _).mp parsed
    obtain ⟨⟨rest, last, _⟩, more, parsed⟩ := (bind_eq_ok _ _ _).mp parsed
    obtain ⟨rfl, rfl⟩ := Prod.mk.inj (Except.ok.inj parsed)
    obtain ⟨passed, peak, listed, some, reads⟩ := readsOn_expression c first _ start
    obtain ⟨passed', peak', listed', _, reads'⟩ := readsOn_moreItems close what closes afterFirst rest _ more
    have begins := Cursor.differs_of_eat _ open_
    rw [listed] at begins
    dsimp only at listed reads
    rw [listed'] at listed reads
    refine ⟨passed ++ passed', max peak peak', ?_, by simp [some], fun tail follows => ?_⟩
    · rw [listed, List.append_assoc]
    · exact parses_items close what (reads _ (follows_append passed' follows)) (reads' tail follows)
        (first_of_append some begins)
termination_by 16 * c.left + 14
decreasing_by all_goals omega

theorem readsOn_moreItems (close : Symbol) (what : Expectation) (closes : Closes close) (c : Cursor)
    (list : List Expr) (next : c.Later) (parsed : moreItems close what c = .ok (list, next)) :
    ReadsOn (moreItems close what) c list next.val := by
  rw [moreItems] at parsed
  split at parsed
  · rename_i last closed
    obtain ⟨rfl, rfl⟩ := Prod.mk.inj (Except.ok.inj parsed)
    have closed := Cursor.tokens_of_passes (c.passes_of_eat _ _ closed)
    exact ⟨[.symbol close], 0, closed, List.cons_ne_nil _ _, fun tail _ => parses_noMoreItems close what⟩
  · obtain ⟨⟨afterComma, _⟩, comma, parsed⟩ := (bind_eq_ok _ _ _).mp parsed
    obtain ⟨⟨item, afterItem, _⟩, start, parsed⟩ := (bind_eq_ok _ _ _).mp parsed
    obtain ⟨⟨rest, last, _⟩, more, parsed⟩ := (bind_eq_ok _ _ _).mp parsed
    obtain ⟨rfl, rfl⟩ := Prod.mk.inj (Except.ok.inj parsed)
    have comma := Cursor.tokens_of_passes (c.passes_of_expect _ _ _ comma)
    obtain ⟨passed, peak, listed, some, reads⟩ := readsOn_expression afterComma item _ start
    obtain ⟨passed', peak', listed', _, reads'⟩ := readsOn_moreItems close what closes afterItem rest _ more
    dsimp only at comma listed reads
    rw [listed'] at listed reads
    refine ⟨.symbol .comma :: (passed ++ passed'), max peak peak', ?_, List.cons_ne_nil _ _, fun tail follows => ?_⟩
    · rw [comma, listed, List.cons_append, List.append_assoc]
    · exact parses_moreItems close what closes.differs (reads _ (follows_append passed' follows)) (reads' tail follows)
termination_by 16 * c.left
decreasing_by all_goals omega
end

end Stencil
