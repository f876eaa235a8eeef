import Stencil.Proofs.Expr.Integers
import Stencil.Proofs.Value.Fields
import Stencil.Render.Execution

set_option autoImplicit false

namespace Stencil

structure Fields.Sets (vars : Fields) (name : String) (value : Value) (changed : Fields) : Prop where
  here : changed.get? name = some value
  others : ∀ other, other ≠ name → changed.get? other = vars.get? other

theorem Fields.sets_insert (vars : Fields) (name : String) (value : Value) : vars.Sets name value (vars.insert name value) := by
  constructor
  · rw [get_insert, if_pos rfl]
  · intro other differs
    rw [get_insert, if_neg differs]

theorem Fields.sets_trans {vars between changed : Fields} {name : String} {first value : Value}
    (early : vars.Sets name first between) (late : between.Sets name value changed) : vars.Sets name value changed :=
  ⟨late.here, fun other differs => (late.others other differs).trans (early.others other differs)⟩

theorem Operand.fits_of_ofText (text : String) (n : Int) (read : ofText? text = some (.int n)) : FitsSigned n := by
  rw [ofText?] at read
  rcases Option.or_eq_some_iff.mp read with integer | ⟨_, float⟩
  · obtain ⟨m, found, same⟩ := Option.map_eq_some_iff.mp integer
    obtain rfl := Operand.int.inj same
    rw [integer?] at found
    obtain ⟨_, _, fits⟩ := Option.bind_eq_some_iff.mp found
    obtain ⟨within, value⟩ := Option.ite_none_right_eq_some.mp fits
    exact Option.some.inj value ▸ within
  · obtain ⟨_, _, same⟩ := Option.map_eq_some_iff.mp float
    cases same

theorem Value.fits_of_toOperand (value : Value) (n : Int) (read : value.toOperand? = some (.int n)) : FitsSigned n := by
  cases value with
  | null =>
      obtain rfl := Operand.int.inj (Option.some.inj read)
      decide
  | bool b =>
      obtain rfl := Operand.int.inj (Option.some.inj read)
      cases b <;> decide
  | number m =>
      have operand := Option.some.inj read
      cases m with
      | int m word =>
          rw [Number.toOperand] at operand
          split at operand
          · rename_i within
            exact Operand.int.inj operand ▸ within
          · cases operand
      | float x finite => cases operand
  | string s => exact Operand.fits_of_ofText s n read
  | list | object => cases read

theorem Value.counted_up (value : Value) (n : Int) (read : value.toOperand? = some (.int n)) (textless : value.kind ≠ .string)
    (fits : FitsSigned (n + 1)) : value.plus (ofNat 1) = .ok (ofInt (n + 1) fits) := by
  have computes := computes_calculate (b := 1) (.inl rfl : BinaryOp.IsArithmetic .add) (fits_of_toOperand value n read)
  have numbers : (value.kind == .string || (ofNat 1).kind == .string) = false := by
    rw [beq_eq_false_iff_ne.mpr textless]
    rfl
  rw [plus, numbers, if_neg Bool.false_ne_true, arithmetic, read]
  exact computes.exact (n + 1) fits rfl fun overflows => by cases overflows.1

theorem Value.counted_down (value : Value) (n : Int) (read : value.toOperand? = some (.int n)) (fits : FitsSigned (n - 1)) :
    value.arithmetic .sub (ofNat 1) = .ok (ofInt (n - 1) fits) := by
  have computes := computes_calculate (b := 1) (.inr (.inl rfl) : BinaryOp.IsArithmetic .sub) (fits_of_toOperand value n read)
  rw [arithmetic, read]
  exact computes.exact (n - 1) fits rfl fun overflows => by cases overflows.1

namespace Assignment

variable (site : Site) {vars : Fields} {name : String} {value : Value}

theorem apply_of_evaluate (assignment : Assignment) {e : Expr} {result : Value} (target : assignment.target = (name, e))
    (evaluated : evaluate vars e = .ok result) :
    ∃ changed, assignment.apply site vars = .ok changed ∧ vars.Sets name result changed := by
  refine ⟨vars.insert name result, ?_, Fields.sets_insert vars name result⟩
  rw [apply, target]
  dsimp only
  rw [Site.evaluate, evaluated]
  rfl

theorem apply_increment {result : Value} (found : vars.get? name = some value) (counted : value.plus (.ofNat 1) = .ok result) :
    ∃ changed, (increment name).apply site vars = .ok changed ∧ vars.Sets name result changed := by
  refine apply_of_evaluate site (increment name) rfl ?_
  rw [evaluate_arithmetic (.inl rfl) vars (.var name) one value (.ofNat 1) (by rw [evaluate, found]) (by rw [one, evaluate])]
  exact counted

theorem apply_decrement {result : Value} (found : vars.get? name = some value)
    (counted : value.arithmetic .sub (.ofNat 1) = .ok result) :
    ∃ changed, (decrement name).apply site vars = .ok changed ∧ vars.Sets name result changed := by
  refine apply_of_evaluate site (decrement name) rfl ?_
  rw [evaluate_arithmetic (.inr (.inl rfl)) vars (.var name) one value (.ofNat 1) (by rw [evaluate, found])
    (by rw [one, evaluate])]
  exact counted

theorem apply_appending (s : String) (found : vars.get? name = some (.string s)) :
    ∃ changed, (increment name).apply site vars = .ok changed ∧ vars.Sets name (.string (s ++ "1")) changed :=
  apply_increment site found rfl

theorem increments (count : Nat) (n : Int) (within : FitsSigned n) (found : vars.get? name = some (.ofInt n within))
    (fits : FitsSigned (n + count)) :
    ∃ changed, applyAll site vars (List.replicate count (increment name)) = .ok changed ∧
      vars.Sets name (.ofInt (n + count) fits) changed := by
  induction count generalizing n vars with
  | zero =>
      have same : n + (0 : Nat) = n := Int.add_zero n
      simp only [same]
      exact ⟨vars, rfl, found, fun _ _ => rfl⟩
  | succ count ih =>
      have read : (Value.ofInt n within).toOperand? = some (.int n) := congrArg some (if_pos within)
      have next : FitsSigned (n + 1) := by
        unfold FitsSigned at *
        omega
      have regrouped : n + (count + 1 : Nat) = n + 1 + count := by omega
      simp only [regrouped] at fits ⊢
      obtain ⟨between, first, early⟩ := apply_increment site found (Value.counted_up _ n read nofun next)
      obtain ⟨changed, later, late⟩ := ih (n + 1) next early.here fits
      refine ⟨changed, ?_, Fields.sets_trans early late⟩
      rw [List.replicate_succ, applyAll, first]
      exact later

structure Counts (vars : Fields) (name : String) (value : Value) (n : Int) : Prop where
  up : value.kind ≠ .string → n < greatestInteger → ∃ fits changed,
    (increment name).apply site vars = .ok changed ∧ vars.Sets name (.ofInt (n + 1) fits) changed
  appended : ∀ s, value = .string s → ∃ changed,
    (increment name).apply site vars = .ok changed ∧ vars.Sets name (.string (s ++ "1")) changed
  down : -0x8000000000000000 < n → ∃ fits changed,
    (decrement name).apply site vars = .ok changed ∧ vars.Sets name (.ofInt (n - 1) fits) changed
  back : value.kind ≠ .string → n < greatestInteger → ∃ fits changed,
    applyAll site vars [increment name, decrement name] = .ok changed ∧ vars.Sets name (.ofInt n fits) changed
  repeated : value.kind ≠ .string → ∀ count : Nat, n + count < greatestInteger → ∃ fits changed,
    applyAll site vars (List.replicate (count + 1) (increment name)) = .ok changed ∧
      vars.Sets name (.ofInt (n + 1 + count) fits) changed

/-- A variable whose value is read as an integer is counted up and down by one, all others staying as they are. Only a
text is not counted up: the digit is appended to it. -/
theorem counts_integer (vars : Fields) (name : String) (value : Value) (n : Int) (found : vars.get? name = some value)
    (read : value.toOperand? = some (.int n)) : Counts site vars name value n := by
  have within := value.fits_of_toOperand n read
  have below (limit : n < greatestInteger) : FitsSigned (n + 1) := by
    unfold FitsSigned greatestInteger at *
    omega
  constructor
  case up =>
    intro textless limit
    exact ⟨below limit, apply_increment site found (value.counted_up n read textless (below limit))⟩
  case appended =>
    rintro s rfl
    exact apply_appending site s found
  case down =>
    intro limit
    have fits : FitsSigned (n - 1) := by
      unfold FitsSigned at *
      omega
    exact ⟨fits, apply_decrement site found (value.counted_down n read fits)⟩
  case back =>
    intro textless limit
    have next := below limit
    obtain ⟨between, first, early⟩ := apply_increment site found (value.counted_up n read textless next)
    have again : (Value.ofInt (n + 1) next).toOperand? = some (.int (n + 1)) := congrArg some (if_pos next)
    have returned : n + 1 - 1 = n := by omega
    have counted := Value.counted_down _ (n + 1) again (returned.symm ▸ within)
    simp only [returned] at counted
    obtain ⟨changed, second, late⟩ := apply_decrement site early.here counted
    refine ⟨within, changed, ?_, Fields.sets_trans early late⟩
    rw [applyAll, first]
    dsimp only
    rw [applyAll, second]
    rfl
  case repeated =>
    intro textless count limit
    have next := below (by omega)
    have fits : FitsSigned (n + 1 + count) := by
      unfold FitsSigned greatestInteger at *
      omega
    obtain ⟨between, first, early⟩ := apply_increment site found (value.counted_up n read textless next)
    obtain ⟨changed, later, late⟩ := increments site count (n + 1) next early.here fits
    refine ⟨fits, changed, ?_, Fields.sets_trans early late⟩
    rw [List.replicate_succ, applyAll, first]
    exact later

theorem counts_integer_truth : [("i", Value.bool true)].lookup "i" = some (.bool true) ∧
    (Value.bool true).toOperand? = some (.int 1) ∧ Counts ⟨"page", 1⟩ [("i", .bool true)] "i" (.bool true) 1 :=
  ⟨rfl, rfl, counts_integer ⟨"page", 1⟩ [("i", .bool true)] "i" (.bool true) 1 rfl rfl⟩

/-- A text that is read as five is not counted up to six. -/
theorem text_uncounted :
    (Value.string "5").toOperand? = some (.int 5) ∧
    ∃ changed, (increment "i").apply ⟨"page", 1⟩ [("i", .string "5")] = .ok changed ∧
      changed.get? "i" ≠ some (.ofInt 6 (by decide)) := by
  refine ⟨rfl, ?_⟩
  obtain ⟨changed, applied, sets⟩ := apply_appending ⟨"page", 1⟩ "5" (rfl : Fields.get? [("i", .string "5")] "i" = _)
  refine ⟨changed, applied, fun six => ?_⟩
  cases sets.here.symm.trans six

end Assignment

end Stencil
