import Stencil.Expr.Evaluation
import Stencil.Proofs.Expr.Balanced
import Stencil.Proofs.Expr.Names

set_option autoImplicit false

namespace Stencil

def issetTokens (left : List Token) : List Token :=
  .word "isset" :: .symbol .openParen :: (left ++ [.symbol .closeParen])

def guardedTokens (left right : List Token) : List Token :=
  issetTokens left ++ .symbol .question :: (left ++ .symbol .colon :: right)

section

variable {peak further : Nat} {left right : List Token} {x y : Expr}

theorem parses_isset (first : Wholly peak left x) (tail : List Token) (stops : Stops 1 tail) :
    Parses coalesce peak (issetTokens left) (.isset x) tail := by
  have lists := Lists.items first .ended
  rw [List.append_nil, Nat.max_eq_left (Nat.zero_le peak)] at lists
  have args : Parses (items .closeParen .commaOrParen) peak (left ++ [.symbol .closeParen]) [x] tail :=
    parses_lists .closeParen .commaOrParen ⟨rfl, rfl, by decide⟩ lists
  have call : Parses (readAt 10) peak (issetTokens left) (.isset x) tail := parses_call "isset" (fun _ => rfl) args
  have read : Parses (readAt 1) peak (issetTokens left) (.isset x) tail := by
    refine parses_place (by decide) (Nat.le_refl 10) stops (fun _ token first => ?_) call
    obtain rfl := Option.some.inj first
    decide
  exact read

theorem wholly_guarded (first : Wholly peak left x) (second : Wholly further right y) :
    Wholly (max peak further + 1) (guardedTokens left right) (.choice (.isset x) x y) := by
  refine ⟨⟨_, _, rfl, rfl, by simp⟩, fun tail stops => ?_⟩
  have whole := parses_choice (parses_isset first _ (stops_cons 0 rfl (by decide)))
    (first.reads _ (stops_unbound rfl)) (second.reads tail stops) (first_of_starts first.starts .colon rfl)
  rw [← Nat.max_assoc, Nat.max_self] at whole
  exact parses_expression whole

end

theorem unary_of_expression (c : Cursor) (e : Expr) (next : c.Later) (parsed : expression c = .ok (e, next)) :
    ∃ (inner : Cursor) (operand : Expr) (after : inner.Later), inner.tokens = c.tokens ∧
      unary inner = .ok (operand, after) := by
  have chained (levels : List Level) (inner : Cursor) (first : Expr) (after : inner.Later)
      (read : chain levels inner = .ok (first, after)) :
      ∃ operand afterOperand, unary inner = .ok (operand, afterOperand) := by
    induction levels generalizing first after with
    | nil => exact ⟨first, after, chain_nil ▸ read⟩
    | cons level tighter ih =>
        rw [chain] at read
        obtain ⟨⟨operand, afterOperand, _⟩, start, _⟩ := (bind_eq_ok _ _ _).mp read
        exact ih _ _ start
  rw [expression] at parsed
  obtain ⟨⟨inner, here⟩, down, parsed⟩ := (bind_eq_ok _ _ _).mp parsed
  obtain ⟨_, first, _⟩ := (bind_eq_ok _ _ _).mp parsed
  rw [ternary] at first
  obtain ⟨_, first, _⟩ := (bind_eq_ok _ _ _).mp first
  rw [coalesce] at first
  obtain ⟨_, first, _⟩ := (bind_eq_ok _ _ _).mp first
  obtain ⟨operand, after, read⟩ := chained _ _ _ _ first
  exact ⟨inner, operand, after, c.tokens_of_descend _ down, read⟩

theorem primary_of_unary (c : Cursor) (e : Expr) (next : c.Later) (token : Token) (rest : List Token)
    (lone : unaryOp? token = none) (starts : c.tokens = token :: rest) (parsed : unary c = .ok (e, next)) :
    ∃ operand after, primary c = .ok (operand, after) := by
  rw [unary] at parsed
  split at parsed
  · rw [access] at parsed
    obtain ⟨⟨target, afterTarget, _⟩, start, _⟩ := (bind_eq_ok _ _ _).mp parsed
    exact ⟨_, _, start⟩
  · rename_i op afterOp _ mark
    obtain ⟨_, mark, known⟩ := c.passes_of_pass _ _ _ mark
    rw [Cursor.tokens_of_passes mark] at starts
    obtain ⟨rfl, _⟩ := List.cons.inj starts
    cases lone.symm.trans known

theorem operand_of_isset (offset : Nat) (given : List Expr) (e : Expr) (made : callOf "isset" offset given = .ok e) :
    ∃ x, given = [x] := by
  rcases given with _ | ⟨x, _ | ⟨other, rest⟩⟩
  · cases made
  · exact ⟨x, rfl⟩
  · cases made

theorem wholly_of_isset (c : Cursor) (e : Expr) (next : c.Later) (left rest : List Token) (balanced : Balanced left)
    (starts : c.tokens = issetTokens left ++ rest) (parsed : expression c = .ok (e, next)) :
    ∃ x peak, Wholly peak left x := by
  have starts : c.tokens = .word "isset" :: .symbol .openParen :: (left ++ .symbol .closeParen :: rest) := by
    rw [starts, issetTokens]
    simp
  obtain ⟨inner, operand, after, same, read⟩ := unary_of_expression c e next parsed
  rw [starts] at same
  obtain ⟨first, afterFirst, read⟩ := primary_of_unary inner operand after _ _ (by decide) same read
  obtain ⟨opened, given, last, offset, listed, read, _, made⟩ := items_of_primary inner afterFirst _ _ first same read
  obtain ⟨x, rfl⟩ := operand_of_isset offset given first made
  obtain ⟨tokens, peak, split, lists⟩ := lists_of_items .closeParen .commaOrParen opened last [x] read
  have closed := balanced_of_items .commaOrParen opened [x] last tokens read split
  rw [listed] at split
  obtain ⟨rfl, _⟩ := balanced_unique balanced closed split
  cases lists with
  | items alone more =>
      cases more
      exact ⟨x, _, by rwa [List.append_nil]⟩

theorem operands_of_ternary (c : Cursor) (e : Expr) (next : c.Later) (depth peak : Nat) (left right : List Token)
    (x : Expr) (first : Wholly peak left x) (shows : c.Shows (guardedTokens left right) depth)
    (parsed : ternary c = .ok (e, next)) (ended : next.val.tokens = []) :
    ∃ y further, depth + peak ≤ greatestNesting ∧ Wholly further right y ∧ depth + further ≤ greatestNesting ∧
      e = .choice (.isset x) x y := by
  rw [ternary] at parsed
  obtain ⟨⟨test, afterTest, _⟩, tested, parsed⟩ := (bind_eq_ok _ _ _).mp parsed
  obtain ⟨enough, rfl, shown⟩ := result_of_parses (parses_isset first _ (stops_cons 0 rfl (by decide))) shows tested
  obtain ⟨branches, _, asked, shown⟩ := Cursor.eat_shown shown
  simp only [asked, Cursor.eat_other shown (first_of_starts first.starts .colon rfl)] at parsed
  obtain ⟨⟨positive, afterPositive, _⟩, second, parsed⟩ := (bind_eq_ok _ _ _).mp parsed
  -- the operand of the test is read once more, as it was before
  obtain ⟨_, same, shown⟩ := result_of_parses (first.reads _ (stops_unbound rfl)) shown second
  subst same
  obtain ⟨⟨afterColon, _⟩, colon, parsed⟩ := (bind_eq_ok _ _ _).mp parsed
  obtain ⟨_, eaten, shown⟩ := (Cursor.yields_expect shown).done (Nat.zero_le _)
  obtain rfl := Except.ok.inj (eaten.symm.trans colon)
  obtain ⟨⟨negative, last, _⟩, third, parsed⟩ := (bind_eq_ok _ _ _).mp parsed
  obtain ⟨rfl, rfl⟩ := Prod.mk.inj (Except.ok.inj parsed)
  obtain ⟨passed, further, listed, wholly, within⟩ := wholly_of_expression afterColon negative _ third
  have behind : afterColon.tokens = right := shown.listed
  dsimp only at ended listed
  rw [behind, ended, List.append_nil] at listed
  subst listed
  have level : afterColon.depth = depth := shown.level
  have allowed := shown.within
  exact ⟨negative, further, enough, wholly, level ▸ (within (by omega)).1, rfl⟩

/-- Whatever the tokens of the choice are read as, if no parenthesis is left open between those of its test, then
they are read as the choice, and those of its operands as the operands. -/
theorem operands_of_guarded (text : List Char) (left right : List Token) (e : Expr)
    (lexes : Lexes text (guardedTokens left right)) (balanced : Balanced left) (parsed : Expr.parse text = .ok e) :
    ∃ x y peak further, Wholly peak left x ∧ peak ≤ greatestNesting ∧ Wholly further right y ∧
      further ≤ greatestNesting ∧ e = .choice (.isset x) x y := by
  obtain ⟨c, next, read, whole, ended⟩ := (parse_iff_whole text e).mp parsed
  have starts : c.tokens = guardedTokens left right := lexes_unique text _ _ (cursor_eq_ok text c read).1 lexes
  obtain ⟨x, peak, first⟩ := wholly_of_isset c e next left _ balanced starts whole
  rw [expression] at whole
  obtain ⟨⟨inner, here⟩, down, whole⟩ := (bind_eq_ok _ _ _).mp whole
  obtain ⟨⟨e, last⟩, read, whole⟩ := (bind_eq_ok _ _ _).mp whole
  obtain ⟨rfl, rfl⟩ := Prod.mk.inj (Except.ok.inj whole)
  have tokens : inner.tokens = guardedTokens left right := (c.tokens_of_descend _ down).trans starts
  obtain ⟨room, deeper⟩ := c.deeper_of_descend _ down
  have within : inner.depth ≤ greatestNesting := by
    dsimp only at deeper
    rw [deeper, Cursor.deeper]
    exact room
  obtain ⟨y, further, enough, second, enough', rfl⟩ :=
    operands_of_ternary inner _ last _ peak left right x first ⟨tokens, rfl, within⟩ read (tokens_of_expectEnd _ ended)
  exact ⟨x, y, peak, further, first, by omega, second, by omega, rfl⟩

section

variable (vars : Fields) (x y : Expr)

theorem toOption_eq_some (result : Except EvalFault Value) (v : Value) : result.toOption = some v ↔ result = .ok v := by
  cases result <;> simp [Except.toOption]

theorem soft_eq_some (e : Expr) (v : Value) : soft vars e = .ok (some v) ↔ evaluate vars e = .ok v := by
  cases e with
  | var name =>
      rw [soft, evaluate]
      cases vars.get? name <;> simp
  | member target field =>
      have ih := soft_eq_some target
      rw [soft, evaluate, bind_eq_ok, bind_eq_ok]
      constructor
      · rintro ⟨_ | value, found, read⟩
        · cases read
        · exact ⟨value, (ih value).mp found, (toOption_eq_some _ v).mp (Except.ok.inj read)⟩
      · rintro ⟨value, found, read⟩
        exact ⟨some value, (ih value).mpr found, congrArg Except.ok ((toOption_eq_some _ v).mpr read)⟩
  | index target key =>
      have ih := soft_eq_some target
      rw [soft, evaluate, bind_eq_ok, bind_eq_ok]
      constructor
      · rintro ⟨_ | value, found, read⟩
        · cases read
        · obtain ⟨place, asked, read⟩ := (bind_eq_ok _ _ _).mp read
          refine ⟨value, (ih value).mp found, (bind_eq_ok _ _ _).mpr ⟨place, asked, ?_⟩⟩
          exact (toOption_eq_some _ v).mp (Except.ok.inj read)
      · rintro ⟨value, found, read⟩
        obtain ⟨place, asked, read⟩ := (bind_eq_ok _ _ _).mp read
        refine ⟨some value, (ih value).mpr found, (bind_eq_ok _ _ _).mpr ⟨place, asked, ?_⟩⟩
        exact congrArg Except.ok ((toOption_eq_some _ v).mpr read)
  | _ =>
      rw [Expr.soft_other vars _ rfl]
      cases evaluate vars _ <;> simp [Except.map]

theorem evaluate_isset : evaluate vars (.isset x) = (soft vars x).map fun found => .bool (found.any (!·.isNull)) := by
  rw [evaluate]
  cases soft vars x with
  | error fault => rfl
  | ok found => cases found <;> rfl

theorem isset_eq_true :
    evaluate vars (.isset x) = .ok (.bool true) ↔ ∃ v, evaluate vars x = .ok v ∧ v.isNull = false := by
  rw [evaluate_isset]
  constructor
  · intro given
    cases path : soft vars x with
    | error fault =>
        rw [path] at given
        cases given
    | ok found =>
        rw [path] at given
        cases found with
        | none => cases given
        | some v => exact ⟨v, (soft_eq_some vars x v).mp path, by simpa [Except.map] using given⟩
  · rintro ⟨v, value, present⟩
    rw [(soft_eq_some vars x v).mpr value]
    simp [Except.map, present]

theorem choice_of_bool (test : Expr) (b : Bool) (tested : evaluate vars test = .ok (.bool b)) :
    evaluate vars (.choice test x y) = if b then evaluate vars x else evaluate vars y := by
  rw [evaluate, tested]
  cases b <;> rfl

theorem choice_of_fault (test : Expr) (fault : EvalFault) (tested : evaluate vars test = .error fault) :
    evaluate vars (.choice test x y) = .error fault := by
  rw [evaluate, tested]
  rfl

theorem coalesce_of_fault (fault : EvalFault) (path : soft vars x = .error fault) :
    evaluate vars (.coalesce x y) = .error fault := by
  rw [evaluate, path]
  rfl

theorem coalesce_of_absent (path : soft vars x = .ok none) : evaluate vars (.coalesce x y) = evaluate vars y := by
  rw [evaluate, path]
  rfl

theorem coalesce_of_found (v : Value) (path : soft vars x = .ok (some v)) :
    evaluate vars (.coalesce x y) = if v.isNull then evaluate vars y else .ok v := by
  rw [evaluate, path]
  rfl

/-- The choice has the value of `a ?? b`. -/
theorem evaluate_guarded : evaluate vars (.choice (.isset x) x y) = evaluate vars (.coalesce x y) := by
  have tested := evaluate_isset vars x
  cases path : soft vars x with
  | error fault =>
      rw [path] at tested
      rw [choice_of_fault vars x y _ fault tested, coalesce_of_fault vars x y fault path]
  | ok found =>
      rw [path] at tested
      rw [choice_of_bool vars x y _ _ tested]
      cases found with
      | none => exact (coalesce_of_absent vars x y path).symm
      | some v =>
          rw [coalesce_of_found vars x y v path, (soft_eq_some vars x v).mp path]
          cases null : v.isNull <;> simp [null]

end

end Stencil
