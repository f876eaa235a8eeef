import Mathlib.Data.Int.Basic
import Stencil.Expr.Evaluation

set_option autoImplicit false

namespace Stencil

theorem FitsSigned.word {n : Int} (fits : FitsSigned n) : FitsWord n := by
  unfold FitsSigned at fits
  unfold FitsWord
  omega

def Value.ofInt (n : Int) (fits : FitsSigned n) : Value := .number (.int n fits.word)

theorem signed_fits (n : Int) (fits : FitsSigned n) : signed? n = some (Value.ofInt n fits) := by
  rw [signed?, if_pos fits, Number.ofInt?, dif_pos fits.word]
  rfl

theorem signed_beyond (n : Int) (beyond : ¬ FitsSigned n) : signed? n = none := if_neg beyond

theorem finite_cases (x : Float) :
    finite x = .error .notFinite ∨ ∃ y within, finite x = .ok (.number (.float y within)) := by
  rw [finite, Number.ofFloat?]
  by_cases within : x.isFinite = true
  · rw [dif_pos within]
    exact .inr ⟨x, within, rfl⟩
  · rw [dif_neg within]
    exact .inl rfl

namespace BinaryOp

-- The integer that the operator gives for two integers, where there is one. A remainder differs from the dividend by
-- a multiple of the divisor, is smaller than the divisor, and has the sign of the dividend.
def Exact (op : BinaryOp) (a b result : Int) : Prop :=
  match op with
  | .add => result = a + b
  | .sub => result = a - b
  | .mul => result = a * b
  | .div => b ≠ 0 ∧ result * b = a
  | .rem => b ∣ a - result ∧ result.natAbs < b.natAbs ∧ (0 ≤ a → 0 ≤ result) ∧ (a ≤ 0 → result ≤ 0)
  | _ => False

-- The only division of signed integers whose quotient is none. The remainder is lost with it.
def Overflows (op : BinaryOp) (a b : Int) : Prop := op = .rem ∧ a = -0x8000000000000000 ∧ b = -1

def IsArithmetic (op : BinaryOp) : Prop := op = .add ∨ op = .sub ∨ op = .mul ∨ op = .div ∨ op = .rem

section Division

variable {a b : Int} (nonzero : b ≠ 0)

include nonzero

theorem exact_div (result : Int) : Exact .div a b result ↔ a.tmod b = 0 ∧ result = a.tdiv b := by
  constructor
  · rintro ⟨_, rfl⟩
    exact ⟨Int.mul_tmod_left .., (Int.mul_tdiv_cancel _ nonzero).symm⟩
  · rintro ⟨divides, rfl⟩
    exact ⟨nonzero, Int.tdiv_mul_cancel (Int.dvd_of_tmod_eq_zero divides)⟩

theorem exact_tmod : Exact .rem a b (a.tmod b) := by
  refine ⟨⟨a.tdiv b, ?_⟩, ?_, Int.tmod_nonneg b, fun negative => ?_⟩
  · have whole := Int.mul_tdiv_add_tmod a b
    omega
  · rw [Int.natAbs_tmod]
    exact Nat.mod_lt _ (Int.natAbs_pos.mpr nonzero)
  · have mirrored := Int.tmod_nonneg b (Int.neg_nonneg_of_nonpos negative)
    rw [Int.neg_tmod] at mirrored
    omega

-- Two remainders of one dividend have one sign, so that they lie less than a divisor apart.
theorem exact_rem (result : Int) : Exact .rem a b result ↔ result = a.tmod b := by
  refine ⟨fun exact => ?_, fun same => same ▸ exact_tmod nonzero⟩
  obtain ⟨divides, small, above, below⟩ := exact
  obtain ⟨divides', small', above', below'⟩ := exact_tmod (a := a) nonzero
  have multiple : b ∣ result - a.tmod b := by
    have difference := Int.dvd_sub divides' divides
    rwa [show a - a.tmod b - (a - result) = result - a.tmod b by omega] at difference
  have close : (result - a.tmod b).natAbs < b.natAbs := by
    rcases Int.le_total 0 a with positive | negative
    · have := above positive
      have := above' positive
      omega
    · have := below negative
      have := below' negative
      omega
  have same := Int.eq_zero_of_dvd_of_natAbs_lt_natAbs multiple close
  omega

theorem tdiv_fits (fits : FitsSigned a) : FitsSigned (a.tdiv b) ↔ ¬ Overflows .rem a b := by
  have size := Int.natAbs_tdiv_le_natAbs a b
  constructor
  · rintro within ⟨_, rfl, rfl⟩
    exact absurd within (by decide)
  · intro proper
    by_cases minus : b = -1
    · have least : a ≠ -0x8000000000000000 := fun least => proper ⟨rfl, least, minus⟩
      rw [minus, Int.tdiv_neg, Int.tdiv_one]
      unfold FitsSigned at *
      omega
    · -- a divisor of more than one halves the quotient at least, and one keeps the sign
      by_cases one : b = 1
      · rw [one, Int.tdiv_one]
        exact fits
      · have halved : (a.tdiv b).natAbs ≤ a.natAbs / 2 := by
          rw [Int.natAbs_tdiv]
          exact Nat.div_le_div_left (by omega) (by decide)
        unfold FitsSigned at *
        omega

end Division

end BinaryOp

namespace Value

open BinaryOp

section Exactness

variable {op : BinaryOp} {a b : Int} (value : Value)

theorem signed_iff (n : Int) : signed? n = some value ↔ ∃ within, value = ofInt n within := by
  by_cases within : FitsSigned n
  · rw [signed_fits n within]
    exact ⟨fun same => ⟨within, (Option.some.inj same).symm⟩, fun ⟨_, same⟩ => congrArg some same.symm⟩
  · rw [signed_beyond n within]
    exact ⟨nofun, fun ⟨fits, _⟩ => absurd fits within⟩

def IsExact (op : BinaryOp) (a b : Int) (value : Value) : Prop :=
  ∃ result within, op.Exact a b result ∧ ¬ op.Overflows a b ∧ value = ofInt result within

theorem isExact_iff (proper : ¬ op.Overflows a b) (n : Int) (only : ∀ result, op.Exact a b result ↔ result = n) :
    signed? n = some value ↔ IsExact op a b value := by
  rw [signed_iff]
  constructor
  · rintro ⟨within, same⟩
    exact ⟨n, within, (only n).mpr rfl, proper, same⟩
  · rintro ⟨result, within, exact, _, same⟩
    obtain rfl := (only result).mp exact
    exact ⟨within, same⟩

theorem exactly_iff (arithmetic : op.IsArithmetic) (fits : FitsSigned a) (divisible : ¬ (divides op ∧ b = 0)) :
    exactly? op a b = some value ↔ IsExact op a b value := by
  have calm (other : op ≠ .rem) : ¬ op.Overflows a b := fun overflows => other overflows.1
  rcases arithmetic with rfl | rfl | rfl | rfl | rfl
  · exact isExact_iff value (calm nofun) (a + b) fun _ => Iff.rfl
  · exact isExact_iff value (calm nofun) (a - b) fun _ => Iff.rfl
  · exact isExact_iff value (calm nofun) (a * b) fun _ => Iff.rfl
  · have nonzero : b ≠ 0 := fun zero => divisible ⟨rfl, zero⟩
    by_cases whole : a.tmod b = 0
    · rw [exactly?, if_pos whole]
      refine isExact_iff value (calm nofun) (a.tdiv b) fun result => ?_
      rw [exact_div nonzero]
      exact and_iff_right whole
    · rw [exactly?, if_neg whole]
      refine ⟨nofun, fun ⟨result, _, exact, _⟩ => ?_⟩
      exact absurd ((exact_div nonzero result).mp exact).1 whole
  · have nonzero : b ≠ 0 := fun zero => divisible ⟨rfl, zero⟩
    by_cases proper : Overflows .rem a b
    · rw [exactly?, if_neg fun within => (tdiv_fits nonzero fits).mp within proper]
      exact ⟨nofun, fun ⟨_, _, _, calm, _⟩ => absurd proper calm⟩
    · rw [exactly?, if_pos ((tdiv_fits nonzero fits).mpr proper)]
      exact isExact_iff value proper (a.tmod b) (exact_rem nonzero)

end Exactness

structure Computes (op : BinaryOp) (a b : Int) (result : Except EvalFault Value) : Prop where
  exact : ∀ n (within : FitsSigned n), op.Exact a b n → ¬ op.Overflows a b → result = .ok (ofInt n within)
  division : result = .error .divisionByZero ↔ op = .div ∧ b = 0
  modulo : result = .error .moduloByZero ↔ op = .rem ∧ b = 0
  inexact : ¬ (divides op ∧ b = 0) → (∀ n, op.Exact a b n → FitsSigned n → op.Overflows a b) →
    result = .error .notFinite ∨ ∃ x finite, result = .ok (.number (.float x finite))

section Calculation

variable {op : BinaryOp} {a b : Int} (arithmetic : op.IsArithmetic)

include arithmetic

theorem exact_divisible (n : Int) (exact : op.Exact a b n) : ¬ (divides op ∧ b = 0) := by
  rintro ⟨divides, rfl⟩
  rcases arithmetic with rfl | rfl | rfl | rfl | rfl
  · cases divides
  · cases divides
  · cases divides
  · exact exact.1 rfl
  · exact absurd exact.2.1 (Nat.not_lt_zero _)

theorem divides_iff : divides op ↔ op = .div ∨ op = .rem := by
  rcases arithmetic with rfl | rfl | rfl | rfl | rfl <;> decide

theorem computes_zero (divisor : divides op) : Computes op a 0 (calculate op (.int a) (.int 0)) := by
  have failed : calculate op (.int a) (.int 0) = .error (divisionFault op) := by
    rw [calculate, if_pos (by simpa using divisor)]
  rw [failed]
  constructor
  case exact => exact fun n _ exact => absurd ⟨divisor, rfl⟩ (exact_divisible arithmetic n exact)
  case inexact => exact fun divisible => absurd ⟨divisor, rfl⟩ divisible
  all_goals rcases (divides_iff arithmetic).mp divisor with rfl | rfl <;> simp [divisionFault]

theorem computes_calculate (fits : FitsSigned a) : Computes op a b (calculate op (.int a) (.int b)) := by
  by_cases zero : divides op ∧ b = 0
  · obtain ⟨divisor, rfl⟩ := zero
    exact computes_zero arithmetic divisor
  have exactly := fun value => exactly_iff value arithmetic fits zero
  have undivided (other : BinaryOp) (isDivision : other = .div ∨ other = .rem) : ¬ (op = other ∧ b = 0) := by
    rintro ⟨rfl, none⟩
    exact zero ⟨(divides_iff arithmetic).mpr isDivision, none⟩
  rw [calculate, if_neg (by simpa using zero)]
  cases found : exactly? op a b with
  | some value =>
      obtain ⟨n, within, exact, calm, same⟩ := (exactly value).mp found
      constructor
      case exact =>
        intro m inside exact calm
        have other := (exactly (ofInt m inside)).mpr ⟨m, inside, exact, calm, rfl⟩
        exact congrArg Except.ok (Option.some.inj (found.symm.trans other))
      case division => exact ⟨nofun, fun none => absurd none (undivided .div (.inl rfl))⟩
      case modulo => exact ⟨nofun, fun none => absurd none (undivided .rem (.inr rfl))⟩
      case inexact => exact fun _ overflows => absurd (overflows n exact within) calm
  | none =>
      have left := finite_cases (inexact op (Float.ofInt a) (Float.ofInt b))
      constructor
      case exact =>
        intro m inside exact calm
        cases found.symm.trans ((exactly (ofInt m inside)).mpr ⟨m, inside, exact, calm, rfl⟩)
      case division =>
        refine ⟨fun failed => ?_, fun none => absurd none (undivided .div (.inl rfl))⟩
        rcases left with other | ⟨_, _, other⟩ <;> cases failed.symm.trans other
      case modulo =>
        refine ⟨fun failed => ?_, fun none => absurd none (undivided .rem (.inr rfl))⟩
        rcases left with other | ⟨_, _, other⟩ <;> cases failed.symm.trans other
      case inexact => exact fun _ _ => left

theorem combine_integers (within : FitsSigned a) (fits : FitsSigned b) :
    (ofInt a within).combine op (ofInt b fits) = calculate op (.int a) (.int b) := by
  have left : (ofInt a within).toOperand? = some (.int a) := congrArg some (if_pos within)
  have right : (ofInt b fits).toOperand? = some (.int b) := congrArg some (if_pos fits)
  have operands (op : BinaryOp) : Value.arithmetic op (ofInt a within) (ofInt b fits) = calculate op (.int a) (.int b) := by
    rw [Value.arithmetic, left, right]
  rcases arithmetic with rfl | rfl | rfl | rfl | rfl <;> exact operands _

end Calculation

end Value

theorem evaluate_arithmetic {op : BinaryOp} (arithmetic : op.IsArithmetic) (vars : Fields) (left right : Expr) (x y : Value)
    (first : evaluate vars left = .ok x) (second : evaluate vars right = .ok y) :
    evaluate vars (.binary op left right) = x.combine op y := by
  rcases arithmetic with rfl | rfl | rfl | rfl | rfl
  all_goals
    simp only [evaluate, first, second]
    rfl

/-- An operator of arithmetic on two expressions whose values are signed integers. -/
theorem integers_exact (op : BinaryOp) (arithmetic : op.IsArithmetic) (a b : Int) (within : FitsSigned a)
    (fits : FitsSigned b) (vars : Fields) (left right : Expr) (first : evaluate vars left = .ok (.ofInt a within))
    (second : evaluate vars right = .ok (.ofInt b fits)) :
    Value.Computes op a b (evaluate vars (.binary op left right)) := by
  rw [evaluate_arithmetic arithmetic vars left right _ _ first second, Value.combine_integers arithmetic within fits]
  exact Value.computes_calculate arithmetic within

theorem integers_exact_halves :
    evaluate [("n", .ofInt (-7) (by decide))] (.binary .rem (.var "n") (.literal (.ofInt 2 (by decide)))) =
      .ok (.ofInt (-1) (by decide)) := by
  have computes := integers_exact .rem (.inr (.inr (.inr (.inr rfl)))) (-7) 2 (by decide) (by decide)
    [("n", .ofInt (-7) (by decide))] (.var "n") (.literal (.ofInt 2 (by decide))) (by rw [evaluate]; rfl) (by rw [evaluate])
  refine computes.exact (-1) (by decide) ⟨by decide, by decide, by decide, by decide⟩ fun overflows => ?_
  cases overflows.2.2

/-- The remainder of the least integer by -1 is zero, but it is left to the doubles with the quotient. -/
theorem least_remainder :
    BinaryOp.Exact .rem (-0x8000000000000000) (-1) 0 ∧
    evaluate [("n", .ofInt (-0x8000000000000000) (by decide))] (.binary .rem (.var "n") (.literal (.ofInt (-1) (by decide)))) ≠
      .ok (.ofInt 0 (by decide)) := by
  have arithmetic : BinaryOp.IsArithmetic .rem := .inr (.inr (.inr (.inr rfl)))
  refine ⟨⟨by decide, by decide, by decide, by decide⟩, fun exact => ?_⟩
  have computed := evaluate_arithmetic arithmetic [("n", .ofInt (-0x8000000000000000) (by decide))] (.var "n")
    (.literal (.ofInt (-1) (by decide))) _ _ (by rw [evaluate]; rfl) (by rw [evaluate])
  rw [computed, Value.combine_integers arithmetic] at exact
  have computes := Value.computes_calculate arithmetic (a := -0x8000000000000000) (b := -1) (by decide)
  rcases computes.inexact (by decide) fun _ _ _ => ⟨rfl, rfl, rfl⟩ with other | ⟨_, _, other⟩
  · cases exact.symm.trans other
  · cases exact.symm.trans other

end Stencil
