import Stencil.Json.Token
import Stencil.Proofs.Decimal.Digits

set_option autoImplicit false

namespace Stencil

namespace Decimal

def Numeral.spelling (n : Numeral) : List Char :=
  signed n.negative (n.whole ++ fractionSpelling n.fraction ++ exponentSpelling n.exponent)
where
  fractionSpelling : Option (List Char) → List Char
    | none => []
    | some digits => '.' :: digits
  exponentSpelling : Option (Bool × List Char) → List Char
    | none => []
    | some (negative, digits) => 'e' :: (if negative then '-' else '+') :: digits

def IsDigits (text : List Char) : Prop := text ≠ [] ∧ ∀ c ∈ text, isDigit c = true

def WholeDigits (text : List Char) : Prop := IsDigits text ∧ (text.head? = some '0' → text = ['0'])

theorem zero_whole : WholeDigits ['0'] := by
  refine ⟨⟨List.cons_ne_nil _ _, fun c inside => ?_⟩, fun _ => rfl⟩
  rw [List.mem_singleton.mp inside]
  decide

structure Numeral.Valid (n : Numeral) : Prop where
  whole : WholeDigits n.whole
  fraction : ∀ digits, n.fraction = some digits → IsDigits digits
  exponent : ∀ negative digits, n.exponent = some (negative, digits) → IsDigits digits

theorem isDigit_of_mem_natDigits (n : Nat) (c : Char) (inside : c ∈ natDigits n) :
    isDigit c = true := by
  have digit := Nat.isDigit_of_mem_toDigits (by decide) (by decide) inside
  simpa [Char.isDigit, isDigit, Char.le_def, UInt32.le_iff_toNat_le] using digit

theorem natDigits_digits (n : Nat) : IsDigits (natDigits n) :=
  ⟨Nat.toDigits_ne_nil, isDigit_of_mem_natDigits n⟩

theorem natOfDigits_natDigits (n : Nat) : natOfDigits (natDigits n) = n := by
  have read : Nat.ofDigitChars 10 (natDigits n) 0 = n := Nat.ofDigitChars_ten_toDigits
  rw [Nat.ofDigitChars_eq_foldl] at read
  have same : (fun (value : Nat) (c : Char) => value * 10 + digitValue c)
      = fun value c => 10 * value + (c.toNat - '0'.toNat) := by
    funext value c
    rw [Nat.mul_comm]
    rfl
  rw [natOfDigits, same]
  exact read

theorem head_natDigits (n : Nat) (nonzero : n ≠ 0) : (natDigits n).head? ≠ some '0' := by
  induction n using Nat.strongRecOn with
  | ind n ih =>
      rw [natDigits, Nat.toDigits_eq_if (by decide)]
      split
      · simpa using nonzero
      · rename_i large
        have shorter : n / 10 < n := Nat.div_lt_self (by omega) (by decide)
        have first := ih (n / 10) shorter (by omega)
        cases digits : Nat.toDigits 10 (n / 10) with
        | nil => exact absurd digits Nat.toDigits_ne_nil
        | cons d rest =>
            rw [natDigits, digits] at first
            exact first

theorem natDigits_whole (n : Nat) : WholeDigits (natDigits n) := by
  refine ⟨natDigits_digits n, fun zero => ?_⟩
  by_cases none : n = 0
  · rw [none]
    rfl
  · exact absurd zero (head_natDigits n none)

theorem exponentText_eq (power : Int) :
    exponentText power
      = Numeral.spelling.exponentSpelling (some (decide (power < 0), natDigits power.natAbs)) := by
  by_cases negative : power < 0 <;> simp [exponentText, Numeral.spelling.exponentSpelling, negative]

theorem layout_digits (d : Digits) (nonzero : d.significand ≠ 0) :
    WholeDigits d.layout.1 ∧ ∃ first rest, d.layout.1 = first :: rest ∧ first ≠ '0' := by
  have split := List.takeWhile_append_dropWhile (p := (· = '0')) (l := (natDigits d.significand).reverse)
  have whole := congrArg List.reverse split
  rw [List.reverse_append, List.reverse_reverse] at whole
  have zeros : ∀ c ∈ ((natDigits d.significand).reverse.takeWhile (· = '0')).reverse, c = '0' := by
    intro c inside
    have all := List.all_takeWhile (p := (· = '0')) (l := (natDigits d.significand).reverse)
    exact of_decide_eq_true (List.all_eq_true.mp all c (List.mem_reverse.mp inside))
  have first := head_natDigits d.significand nonzero
  have digits := isDigit_of_mem_natDigits d.significand
  simp only [Digits.layout]
  generalize ((natDigits d.significand).reverse.takeWhile (· = '0')).reverse = tail at whole zeros
  generalize ((natDigits d.significand).reverse.dropWhile (· = '0')).reverse = kept at whole ⊢
  rw [← whole] at first digits
  cases kept with
  | nil =>
      cases tail with
      | nil => exact absurd whole.symm Nat.toDigits_ne_nil
      | cons c tail => exact absurd (congrArg some (zeros c (List.mem_cons_self ..))) first
  | cons c kept =>
      have other : c ≠ '0' := fun same => first (congrArg some same)
      refine ⟨⟨⟨List.cons_ne_nil _ _, fun x inside => digits x (List.mem_append_left _ inside)⟩, ?_⟩,
        c, kept, rfl, other⟩
      intro zero
      exact absurd (Option.some.inj zero) other

theorem isDigit_of_mem_zeros (n : Nat) (c : Char) (inside : c ∈ List.replicate n '0') :
    isDigit c = true := by
  rw [List.eq_of_mem_replicate inside]
  decide

theorem positional_digits (first : Char) (rest : List Char) (point : Int) (other : first ≠ '0')
    (all : ∀ c ∈ first :: rest, isDigit c = true) :
    WholeDigits (positional (first :: rest) point).1 ∧
      ∀ c ∈ (positional (first :: rest) point).2, isDigit c = true := by
  unfold positional
  by_cases small : point ≤ 0
  · rw [if_pos small]
    refine ⟨zero_whole, fun c inside => ?_⟩
    rcases List.mem_append.mp inside with zero | digit
    · exact isDigit_of_mem_zeros _ c zero
    · exact all c digit
  · rw [if_neg small]
    dsimp only
    obtain ⟨n, count⟩ : ∃ n, point.toNat = n + 1 := ⟨point.toNat - 1, by omega⟩
    rw [count]
    refine ⟨⟨⟨by simp, fun c inside => ?_⟩, fun zero => absurd (by simpa using zero) other⟩,
      fun c inside => all c (List.mem_of_mem_drop inside)⟩
    rcases List.mem_append.mp inside with digit | zero
    · exact all c (List.mem_of_mem_take digit)
    · exact isDigit_of_mem_zeros _ c zero

theorem jsonText_spelling (x : Float) :
    ∃ n : Numeral, n.Valid ∧ jsonText x = n.spelling := by
  unfold jsonText
  split
  · exact ⟨⟨isNegative x, ['0'], some ['0'], none⟩,
      ⟨zero_whole, fun digits same => Option.some.inj same ▸ zero_whole.1,
        fun _ _ same => by simp at same⟩, rfl⟩
  · rename_i zero
    have nonzero := shortest_significand .toEven x (by simpa using zero)
    obtain ⟨written, first, rest, shape, other⟩ := layout_digits (shortest .toEven x) nonzero
    have all := written.1.2
    rw [shape] at all
    dsimp only
    rw [shape]
    generalize (shortest .toEven x).layout.2 = point
    have power : ∀ negative digits,
        some (decide (point - 1 < 0), natDigits (point - 1).natAbs) = some (negative, digits) →
          IsDigits digits := by
      intro negative digits same
      simp only [Option.some.injEq, Prod.mk.injEq] at same
      exact same.2 ▸ natDigits_digits _
    have lead : WholeDigits [first] :=
      ⟨⟨List.cons_ne_nil _ _, fun c inside => all c (by
        rw [List.mem_singleton.mp inside]
        exact List.mem_cons_self ..)⟩, fun zero => absurd (Option.some.inj zero) other⟩
    split
    · cases rest with
      | nil =>
          refine ⟨⟨isNegative x, [first], none, _⟩, ⟨lead, fun _ same => by simp at same, power⟩, ?_⟩
          rw [exponentText_eq]
          rfl
      | cons second more =>
          refine ⟨⟨isNegative x, [first], some (second :: more), _⟩, ⟨lead, ?_, power⟩, ?_⟩
          · intro digits same
            rw [← Option.some.inj same]
            exact ⟨List.cons_ne_nil _ _, fun c inside => all c (List.mem_cons_of_mem _ inside)⟩
          · rw [exponentText_eq]
            rfl
    · obtain ⟨whole, fraction⟩ := positional_digits first rest point other all
      generalize positional (first :: rest) point = parts at whole fraction ⊢
      refine ⟨⟨isNegative x, parts.1, some (if parts.2.isEmpty then ['0'] else parts.2), none⟩,
        ⟨whole, ?_, fun _ _ same => by simp at same⟩, ?_⟩
      · intro digits same
        rw [← Option.some.inj same]
        split
        · exact zero_whole.1
        · rename_i some
          exact ⟨fun none => some (by rw [none]; rfl), fraction⟩
      · simp [Numeral.spelling, Numeral.spelling.fractionSpelling, Numeral.spelling.exponentSpelling]

end Decimal

theorem Number.text_spelling (n : Number) : ∃ numeral : Decimal.Numeral,
    numeral.Valid ∧ n.text = numeral.spelling := by
  cases n with
  | int n fits =>
      refine ⟨⟨n < 0, Decimal.natDigits n.natAbs, none, none⟩,
        ⟨Decimal.natDigits_whole _, fun _ same => by simp at same, fun _ _ same => by simp at same⟩, ?_⟩
      simp [Number.text, Decimal.Numeral.spelling, Decimal.Numeral.spelling.fractionSpelling,
        Decimal.Numeral.spelling.exponentSpelling]
  | float x finite => exact Decimal.jsonText_spelling x

namespace Json

open Decimal

def EndsNumeral : List Char → Prop
  | [] => True
  | c :: _ => isDigit c = false ∧ c ≠ '.' ∧ c ≠ 'e' ∧ c ≠ 'E'

theorem leadingDigits_ends (rest : List Char) (ends : ∀ c ∈ rest.head?, isDigit c = false) :
    leadingDigits rest = [] ∧ afterDigits rest = rest := by
  cases rest with
  | nil => exact ⟨rfl, rfl⟩
  | cons c rest =>
      have other := ends c rfl
      simp [leadingDigits, afterDigits, other]

theorem leadingDigits_append (digits rest : List Char) (all : ∀ c ∈ digits, isDigit c = true)
    (ends : ∀ c ∈ rest.head?, isDigit c = false) :
    leadingDigits (digits ++ rest) = digits ∧ afterDigits (digits ++ rest) = rest := by
  obtain ⟨none, stay⟩ := leadingDigits_ends rest ends
  simp only [leadingDigits, afterDigits] at none stay ⊢
  rw [List.takeWhile_append_of_pos all, List.dropWhile_append_of_pos all, none, stay]
  simp

theorem isEmpty_of_isDigits (digits : List Char) (written : IsDigits digits) :
    digits.isEmpty = false := by
  cases digits with
  | nil => exact absurd rfl written.1
  | cons c rest => rfl

theorem whole_append (digits rest : List Char) (written : WholeDigits digits)
    (ends : ∀ c ∈ rest.head?, isDigit c = false) : whole? (digits ++ rest) = some (digits, rest) := by
  obtain ⟨split, after⟩ := leadingDigits_append digits rest written.1.2 ends
  have some := isEmpty_of_isDigits digits written.1
  cases digits with
  | nil => exact absurd rfl written.1.1
  | cons d more =>
      by_cases zero : d = '0'
      · subst zero
        have alone := written.2 rfl
        rw [alone]
        rfl
      · rw [List.cons_append] at split after ⊢
        unfold whole?
        split
        · rename_i same
          exact absurd (List.cons.inj same).1 zero
        · simp [split, after]

theorem fraction_append (fraction : Option (List Char)) (rest : List Char)
    (written : ∀ digits, fraction = some digits → IsDigits digits)
    (ends : ∀ c ∈ rest.head?, isDigit c = false ∧ c ≠ '.') :
    fraction? (Numeral.spelling.fractionSpelling fraction ++ rest) = some (fraction, rest) := by
  cases fraction with
  | none =>
      simp only [Numeral.spelling.fractionSpelling, List.nil_append]
      unfold fraction?
      split
      · exact absurd rfl (ends '.' rfl).2
      · rfl
  | some digits =>
      obtain ⟨split, after⟩ := leadingDigits_append digits rest (written digits rfl).2
        fun c here => (ends c here).1
      have some := isEmpty_of_isDigits digits (written digits rfl)
      simp only [Numeral.spelling.fractionSpelling, List.cons_append, fraction?, split, after, some,
        Bool.false_eq_true, if_false]

theorem exponent_append (exponent : Option (Bool × List Char)) (rest : List Char)
    (written : ∀ negative digits, exponent = some (negative, digits) → IsDigits digits)
    (ends : EndsNumeral rest) :
    exponent? (Numeral.spelling.exponentSpelling exponent ++ rest) = some (exponent, rest) := by
  cases exponent with
  | none =>
      simp only [Numeral.spelling.exponentSpelling, List.nil_append]
      unfold exponent?
      split
      · exact absurd rfl ends.2.2.1
      · exact absurd rfl ends.2.2.2
      · rfl
  | some power =>
      obtain ⟨negative, digits⟩ := power
      obtain ⟨split, after⟩ := leadingDigits_append digits rest (written negative digits rfl).2 (by
        intro c here
        cases rest with
        | nil => simp at here
        | cons d rest =>
            simp only [List.head?_cons, Option.mem_def, Option.some.injEq] at here
            exact here ▸ ends.1)
      have some := isEmpty_of_isDigits digits (written negative digits rfl)
      cases negative <;>
        simp [Numeral.spelling.exponentSpelling, exponent?, signedExponent?, exponentDigits?, split,
          after, some]

theorem head_exponentSpelling (exponent : Option (Bool × List Char)) (rest : List Char)
    (ends : EndsNumeral rest) (c : Char)
    (first : c ∈ (Numeral.spelling.exponentSpelling exponent ++ rest).head?) :
    isDigit c = false ∧ c ≠ '.' := by
  cases exponent with
  | none =>
      cases rest with
      | nil => simp [Numeral.spelling.exponentSpelling] at first
      | cons d rest =>
          simp only [Numeral.spelling.exponentSpelling, List.nil_append, List.head?_cons,
            Option.mem_def, Option.some.injEq] at first
          exact first ▸ ⟨ends.1, ends.2.1⟩
  | some power =>
      simp only [Numeral.spelling.exponentSpelling, List.cons_append, List.head?_cons,
        Option.mem_def, Option.some.injEq] at first
      exact first ▸ by decide

theorem unsigned_append (n : Numeral) (valid : n.Valid) (rest : List Char)
    (ends : EndsNumeral rest) (negative : Bool) :
    unsigned? negative (n.whole ++ Numeral.spelling.fractionSpelling n.fraction
        ++ Numeral.spelling.exponentSpelling n.exponent ++ rest)
      = some (⟨negative, n.whole, n.fraction, n.exponent⟩, rest) := by
  have afterFraction := head_exponentSpelling n.exponent rest ends
  have afterWhole : ∀ c ∈ (Numeral.spelling.fractionSpelling n.fraction
      ++ (Numeral.spelling.exponentSpelling n.exponent ++ rest)).head?, isDigit c = false := by
    intro c first
    cases fraction : n.fraction with
    | none =>
        rw [fraction] at first
        exact (afterFraction c first).1
    | some digits =>
        simp only [fraction, Numeral.spelling.fractionSpelling, List.cons_append, List.head?_cons,
          Option.mem_def, Option.some.injEq] at first
        exact first ▸ by decide
  simp only [List.append_assoc, unsigned?, whole_append n.whole _ valid.whole afterWhole,
    fraction_append n.fraction _ valid.fraction afterFraction,
    exponent_append n.exponent rest valid.exponent ends, Option.bind_eq_bind, Option.bind_some,
    Option.pure_def]

theorem numeral_append (n : Numeral) (valid : n.Valid) (rest : List Char) (ends : EndsNumeral rest) :
    numeral? (n.spelling ++ rest) = some (n, rest) := by
  obtain ⟨negative, whole, fraction, exponent⟩ := n
  have read := unsigned_append _ valid rest ends
  cases negative with
  | true =>
      simpa only [Numeral.spelling, signed, if_true, List.cons_append, numeral?] using read true
  | false =>
      simp only [Numeral.spelling, signed, Bool.false_eq_true, if_false]
      cases whole with
      | nil => exact absurd rfl valid.whole.1.1
      | cons d more =>
          have digit : isDigit d = true := valid.whole.1.2 d (List.mem_cons_self ..)
          unfold numeral?
          split
          · rename_i same
            simp only [List.cons_append, List.cons.injEq] at same
            exact absurd (same.1 ▸ digit) (by decide)
          · exact read false

end Json

namespace Number

def reread? (n : Number) : Option Number := do
  let (numeral, _) ← Json.numeral? n.text
  ofNumeral? numeral

theorem numeral_text (n : Number) : ∃ numeral, n.reread? = ofNumeral? numeral ∧
    ∀ rest, Json.EndsNumeral rest → Json.numeral? (n.text ++ rest) = some (numeral, rest) := by
  obtain ⟨numeral, valid, spelled⟩ := n.text_spelling
  have read := Json.numeral_append numeral valid
  refine ⟨numeral, ?_, fun rest ends => spelled ▸ read rest ends⟩
  have whole := read [] trivial
  rw [List.append_nil] at whole
  rw [reread?, spelled, whole]
  rfl

theorem reread_int (n : Int) (fits : FitsWord n) : (Number.int n fits).reread? = some (.int n fits) := by
  have valid : (⟨decide (n < 0), Decimal.natDigits n.natAbs, none, none⟩ : Decimal.Numeral).Valid :=
    ⟨Decimal.natDigits_whole _, fun _ same => by simp at same, fun _ _ same => by simp at same⟩
  have read := Json.numeral_append _ valid [] trivial
  have spelled : (Number.int n fits).text ++ [] = Decimal.Numeral.spelling
      ⟨decide (n < 0), Decimal.natDigits n.natAbs, none, none⟩ ++ [] := by
    simp [Number.text, Decimal.Numeral.spelling, Decimal.Numeral.spelling.fractionSpelling,
      Decimal.Numeral.spelling.exponentSpelling]
  rw [← spelled, List.append_nil] at read
  have same : (if decide (n < 0) = true then -(n.natAbs : Int) else n.natAbs) = n := by
    by_cases negative : n < 0
    · rw [if_pos (decide_eq_true negative)]
      omega
    · rw [decide_eq_false negative, if_neg Bool.false_ne_true]
      omega
  have proper : (decide (n < 0) && (n.natAbs : Int) == 0) = false := by
    by_cases negative : n < 0
    · have nonzero : ((n.natAbs : Int) == 0) = false := beq_eq_false_iff_ne.mpr (by omega)
      rw [nonzero, Bool.and_false]
    · rw [decide_eq_false negative, Bool.false_and]
  simp only [reread?, read, Option.bind_eq_bind, Option.bind_some, ofNumeral?,
    Decimal.natOfDigits_natDigits, Option.isNone_none, Bool.and_self, proper, Bool.not_false,
    if_true, same, ofInt?, fits, dite_true]

end Number

end Stencil
