import Stencil.Proofs.Expr.Capped
import Stencil.Proofs.Expr.RoundTrip

set_option autoImplicit false

namespace Stencil

theorem tallest_nesting : tallest greatestNesting = 57278 := by decide +kernel

-- What the cap on depth makes of a tree. It is a cap on height where the tree has few nodes, or no operand in front
-- of an operator is taller than what stands behind the operator.
structure Expr.Capped (e : Expr) : Prop where
  nesting : e.nesting ≤ greatestNesting
  height : e.height ≤ 57278
  excess : 2 * e.height ≤ e.size + greatestNesting
  met : e.size ≤ greatestNesting + 1 ∨ e.Leaning → e.height ≤ greatestNesting

theorem capped_expression : Reads Expr.Capped := by
  intro c e next read
  obtain ⟨room, within, built⟩ := builds_expression c e next read
  have levels := nesting_of_builds _ room _ built (by simp [Phrase.found?]) e (List.mem_cons_self ..)
  have height := height_of_builds _ room _ built (by simp [Phrase.found?]) e (List.mem_cons_self ..)
  have nesting : e.nesting ≤ greatestNesting := Nat.le_trans levels within
  have twice := e.twice_height_le
  refine ⟨nesting, ?_, by omega, fun condition => ?_⟩
  · rw [← tallest_nesting]
    exact Nat.le_trans height (tallest_mono within)
  · cases condition with
    | inl small => omega
    | inr leaning => exact Nat.le_trans (e.height_of_leaning leaning) nesting

namespace Expr

def selected : Nat → Expr → Expr
  | 0, e => e
  | n + 1, e => .member (selected n e) "a"

def chained (op : BinaryOp) : Nat → Expr → Expr
  | 0, e => e
  | n + 1, e => .binary op (chained op n e) (.var "a")

theorem height_pos (e : Expr) : 0 < e.height := by
  cases e <;> exact Nat.succ_pos _

-- What a row of operators of one rank keeps: no operand of the row is enclosed, and each operator takes one level.
structure Row (place count : Nat) (start e : Expr) : Prop where
  rank : place ≤ e.rank
  links : linksAt place e.rank e.links = count
  peak : e.peak = max start.peak count
  height : e.height = start.height + count

theorem row_selected (n : Nat) (e : Expr) (tight : 9 < e.rank) : Row 9 n e (selected n e) := by
  induction n with
  | zero => exact ⟨Nat.le_of_lt tight, if_neg (Nat.ne_of_gt tight), by simp [selected], rfl⟩
  | succ n ih =>
      have bare : raised 9 (selected n e).rank (selected n e).peak = (selected n e).peak :=
        if_neg (Nat.not_lt.mpr ih.rank)
      refine ⟨Nat.le_refl 9, ?_, ?_, ?_⟩
      · exact (if_pos rfl).trans (congrArg (· + 1) ih.links)
      · rw [selected, Expr.peak, bare, ih.links, ih.peak]
        omega
      · rw [selected, Expr.height, ih.height]
        omega

theorem row_chained (op : BinaryOp) (n : Nat) (e : Expr) (tight : op.level.rank < e.rank) :
    Row op.level.rank n e (chained op n e) := by
  induction n with
  | zero => exact ⟨Nat.le_of_lt tight, if_neg (Nat.ne_of_gt tight), by simp [chained], rfl⟩
  | succ n ih =>
      have bare : raised op.level.rank (chained op n e).rank (chained op n e).peak = (chained op n e).peak :=
        if_neg (Nat.not_lt.mpr ih.rank)
      have right : raised (op.level.rank + 1) (Expr.var "a").rank (Expr.var "a").peak = 0 :=
        if_neg (Nat.not_lt.mpr (Tower.binary op.level).rank_lt)
      refine ⟨Nat.le_refl _, ?_, ?_, ?_⟩
      · exact (if_pos rfl).trans (congrArg (· + 1) ih.links)
      · rw [chained, Expr.peak, bare, right, ih.links, ih.peak]
        omega
      · have some := e.height_pos
        rw [chained, Expr.height, ih.height, Expr.height]
        omega

def rows (count : Nat) (e : Expr) : Expr :=
  chained .or count (chained .and count (chained .eq count (chained .lt count (chained .add count
    (chained .mul count (selected count e))))))

def fullest : Nat → Expr
  | 0 => .var "a"
  | n + 1 => .elvis (.coalesce (rows (n + 1) (.array [fullest n])) (.var "a")) (.var "a")

theorem row_rows (n : Nat) (e : Expr) (tight : 9 < e.rank) :
    (rows (n + 1) e).rank = 2 ∧ (rows (n + 1) e).peak = max e.peak (n + 1) ∧
      (rows (n + 1) e).height = e.height + 7 * (n + 1) := by
  have fields := row_selected (n + 1) e tight
  have product := row_chained .mul (n + 1) (selected (n + 1) e) (Nat.le_of_ble_eq_true rfl)
  have sum := row_chained .add (n + 1) (chained .mul (n + 1) (selected (n + 1) e)) (Nat.le_of_ble_eq_true rfl)
  have comparison := row_chained .lt (n + 1) (chained .add (n + 1) (chained .mul (n + 1) (selected (n + 1) e)))
    (Nat.le_of_ble_eq_true rfl)
  have equality := row_chained .eq (n + 1) (chained .lt (n + 1) (chained .add (n + 1) (chained .mul (n + 1)
    (selected (n + 1) e)))) (Nat.le_of_ble_eq_true rfl)
  have both := row_chained .and (n + 1) (chained .eq (n + 1) (chained .lt (n + 1) (chained .add (n + 1)
    (chained .mul (n + 1) (selected (n + 1) e))))) (Nat.le_of_ble_eq_true rfl)
  have either := row_chained .or (n + 1) (chained .and (n + 1) (chained .eq (n + 1) (chained .lt (n + 1)
    (chained .add (n + 1) (chained .mul (n + 1) (selected (n + 1) e)))))) (Nat.le_of_ble_eq_true rfl)
  refine ⟨rfl, ?_, ?_⟩
  · rw [rows, either.peak, both.peak, equality.peak, comparison.peak, sum.peak, product.peak, fields.peak]
    omega
  · rw [rows, either.height, both.height, equality.height, comparison.height, sum.height, product.height,
      fields.height]
    omega

theorem peak_fullest (n : Nat) : (fullest n).peak = n := by
  induction n with
  | zero => rfl
  | succ n ih =>
      obtain ⟨rank, peak, _⟩ := row_rows n (.array [fullest n]) (Nat.le_of_ble_eq_true rfl)
      have list : (Expr.array [fullest n]).peak = n + 1 := by
        simp only [Expr.peak, greatestPeak, ih]
        omega
      rw [list] at peak
      have bare : raised 2 (rows (n + 1) (.array [fullest n])).rank (rows (n + 1) (.array [fullest n])).peak =
          (rows (n + 1) (.array [fullest n])).peak := if_neg (by rw [rank]; decide)
      have left : (Expr.coalesce (rows (n + 1) (.array [fullest n])) (.var "a")).peak = n + 1 := by
        rw [Expr.peak, bare, peak]
        exact (show max (max (n + 1) (n + 1)) (0 + 1) = n + 1 by omega)
      have test : raised 1 1 (n + 1) = n + 1 := if_neg (Nat.lt_irrefl 1)
      rw [fullest, Expr.peak, left]
      exact (show max (raised 1 1 (n + 1)) (0 + 1) = n + 1 by rw [test]; omega)

theorem height_fullest (n : Nat) : (fullest n).height = tallest (n + 1) := by
  induction n with
  | zero => rfl
  | succ n ih =>
      obtain ⟨_, _, height⟩ := row_rows n (.array [fullest n]) (Nat.le_of_ble_eq_true rfl)
      have list : (Expr.array [fullest n]).height = tallest (n + 1) + 1 := by
        simp only [Expr.height, greatestHeight, ih]
        omega
      rw [list] at height
      simp only [fullest, Expr.height, height, tallest]
      omega

theorem fits_var : (Expr.var "a").Fits := ⟨by decide, 'a', rfl, by decide⟩

theorem fits_selected (n : Nat) (e : Expr) (fits : e.Fits) : (selected n e).Fits := by
  induction n with
  | zero => exact fits
  | succ n ih => exact ⟨ih, Or.inl fits_var⟩

theorem fits_chained (op : BinaryOp) (n : Nat) (e : Expr) (fits : e.Fits) : (chained op n e).Fits := by
  induction n with
  | zero => exact fits
  | succ n ih => exact ⟨ih, fits_var⟩

theorem fits_fullest (n : Nat) : (fullest n).Fits := by
  induction n with
  | zero => exact fits_var
  | succ n ih =>
      have list : (Expr.array [fullest n]).Fits := ⟨ih, trivial⟩
      refine ⟨⟨?_, fits_var⟩, fits_var⟩
      iterate 6 apply fits_chained
      exact fits_selected _ _ list

end Expr

theorem parsed_height (text : List Char) :
    (∀ e : Expr, Expr.parse text = .ok e → e.Capped) ∧
    (∀ list : List Expr, Expr.parseAll text = .ok list → ∀ e ∈ list, e.Capped) ∧
    (∀ header : EachHeader, EachHeader.parse text = .ok header → header.Each Expr.Capped) ∧
    ∀ header : ForHeader, ForHeader.parse text = .ok header → header.Each Expr.Capped :=
  ⟨part_parse capped_expression text, parts_parseAll capped_expression text,
    parts_eachHeader capped_expression text, parts_forHeader capped_expression text⟩

theorem parsed_height_member : Expr.parse "$a . b".toList = .ok (.member (.var "a") "b") ∧
    (Expr.member (.var "a") "b").height ≤ greatestNesting := by
  have fits : (Expr.member (.var "a") "b").Fits := ⟨Expr.fits_var, Or.inl ⟨by decide, 'b', rfl, by decide⟩⟩
  have read : Expr.parse "$a . b".toList = .ok (.member (.var "a") "b") := parse_print _ fits (by decide)
  exact ⟨read, ((parsed_height _).1 _ read).met (Or.inl (by decide))⟩

theorem tallest_read : ∃ (text : List Char) (e : Expr), Expr.parse text = .ok e ∧ e.height = 57278 := by
  refine ⟨(Expr.fullest 127).print, Expr.fullest 127, ?_, ?_⟩
  · refine parse_print _ (Expr.fits_fullest 127) ?_
    rw [Expr.peak_fullest]
    decide
  · rw [Expr.height_fullest]
    exact tallest_nesting

theorem product_over_fields :
    Expr.parse (Expr.binary .mul (Expr.selected 127 (.var "a")) (.var "a")).print =
      .ok (.binary .mul (Expr.selected 127 (.var "a")) (.var "a")) ∧
    greatestNesting < (Expr.binary .mul (Expr.selected 127 (.var "a")) (.var "a")).height := by
  have fields := Expr.row_selected 127 (.var "a") (Nat.le_of_ble_eq_true rfl)
  have product := Expr.row_chained .mul 1 (Expr.selected 127 (.var "a")) (Nat.le_of_ble_eq_true rfl)
  constructor
  · refine parse_print _ (Expr.fits_chained .mul 1 _ (Expr.fits_selected 127 _ Expr.fits_var)) ?_
    refine Nat.lt_of_le_of_lt (Nat.le_of_eq product.peak) ?_
    rw [fields.peak]
    decide
  · refine Nat.lt_of_lt_of_le ?_ (Nat.le_of_eq product.height.symm)
    rw [fields.height]
    decide

end Stencil
