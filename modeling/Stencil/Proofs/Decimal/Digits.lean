import Stencil.Decimal.Notation

set_option autoImplicit false

namespace Stencil.Decimal

theorem tenTo_pos (n : Nat) : 0 < tenTo n := Nat.pow_pos (by decide)

theorem tenTo_succ (n : Nat) : tenTo (n + 1) = tenTo n * 10 := rfl

theorem twoTo_add (m n : Nat) : twoTo (m + n) = twoTo m * twoTo n := by
  simp only [twoTo, Nat.one_shiftLeft, Nat.pow_add]

theorem twoTo_pos (n : Nat) : 0 < twoTo n := by
  simp only [twoTo, Nat.one_shiftLeft]
  exact Nat.two_pow_pos n

theorem twoTo_log2_le (n : Nat) (nonzero : n ≠ 0) : twoTo n.log2 ≤ n := by
  rw [twoTo, Nat.one_shiftLeft]
  exact Nat.log2_self_le nonzero

theorem log2_twoTo (n : Nat) : (twoTo n).log2 = n := by
  rw [twoTo, Nat.one_shiftLeft, Nat.log2_two_pow]

theorem le_log2_of_twoTo_le (n k : Nat) (nonzero : n ≠ 0) (below : twoTo k ≤ n) : k ≤ n.log2 := by
  rw [twoTo, Nat.one_shiftLeft] at below
  exact (Nat.le_log2 nonzero).mpr below

theorem log2_lt_of_lt_twoTo (n k : Nat) (nonzero : n ≠ 0) (above : n < twoTo k) : n.log2 < k := by
  rw [twoTo, Nat.one_shiftLeft] at above
  exact (Nat.log2_lt nonzero).mpr above

namespace Interval

theorem hit_ne_zero (i : Interval) (tie : Tie) (grid : Int) (n : Nat)
    (hit : i.hit? tie grid = some n) : n ≠ 0 := by
  unfold hit? at hit
  dsimp only at hit
  split at hit
  · simp at hit
  · rename_i low _
    simp only [Bool.and_eq_true, bne_iff_ne] at low
    simp only [Option.some.injEq] at hit
    exact hit ▸ low.1
  · simp only [Option.some.injEq] at hit
    exact hit ▸ Nat.succ_ne_zero _
  · rename_i low _
    simp only [Bool.and_eq_true, bne_iff_ne] at low
    have nonzero := low.1
    generalize i.value * tenTo (-grid).toNat / (i.denominator * tenTo grid.toNat) = low at hit nonzero
    split at hit
    · simp only [Option.some.injEq] at hit
      exact hit ▸ nonzero
    · split at hit
      · simp only [Option.some.injEq] at hit
        exact hit ▸ Nat.succ_ne_zero low
      · simp only [Option.some.injEq] at hit
        subst hit
        cases tie with
        | toEven => exact Nat.ne_of_gt (Nat.add_pos_left (Nat.pos_of_ne_zero nonzero) _)
        | up => exact Nat.succ_ne_zero low

theorem reaches_pred (i : Interval) (power : Int) (reached : i.reaches power = true) :
    i.reaches (power - 1) = true := by
  simp only [reaches, decide_eq_true_eq] at reached ⊢
  by_cases positive : 0 < power
  · have up : power.toNat = (power - 1).toNat + 1 := by omega
    have down : (-power).toNat = 0 := by omega
    have down' : (-(power - 1)).toNat = 0 := by omega
    rw [up, down, tenTo_succ] at reached
    rw [down']
    have : i.denominator * tenTo (power - 1).toNat ≤ i.denominator * (tenTo (power - 1).toNat * 10) :=
      Nat.mul_le_mul_left _ (Nat.le_mul_of_pos_right _ (by decide))
    exact Nat.le_trans this reached
  · have up : power.toNat = 0 := by omega
    have up' : (power - 1).toNat = 0 := by omega
    have down : (-(power - 1)).toNat = (-power).toNat + 1 := by omega
    rw [up] at reached
    rw [up', down, tenTo_succ]
    have : i.value * tenTo (-power).toNat ≤ i.value * (tenTo (-power).toNat * 10) :=
      Nat.mul_le_mul_left _ (Nat.le_mul_of_pos_right _ (by decide))
    exact Nat.le_trans reached this

theorem reaches_sub (i : Interval) (power : Int) (steps : Nat) (reached : i.reaches power = true) :
    i.reaches (power - steps) = true := by
  induction steps with
  | zero => simpa using reached
  | succ steps ih =>
      have next := i.reaches_pred (power - steps) ih
      have same : power - ((steps + 1 : Nat) : Int) = power - steps - 1 := by omega
      rwa [same]

-- The last grid is the only one on which no hit is asked for, and there the value is at least one
-- step of the grid.
theorem search_significand (i : Interval) (tie : Tie) (left : Nat) (grid : Int)
    (positive : 0 < i.denominator) (reached : i.reaches (grid - left) = true) :
    (i.search tie left grid).significand ≠ 0 := by
  induction left generalizing grid with
  | zero =>
      unfold search
      split
      · rename_i n hit
        exact i.hit_ne_zero tie grid n hit
      · simp only [reaches, decide_eq_true_eq] at reached
        have whole : grid - ((0 : Nat) : Int) = grid := by omega
        rw [whole] at reached
        have step : 0 < i.denominator * tenTo grid.toNat := Nat.mul_pos positive (tenTo_pos _)
        exact Nat.ne_of_gt (Nat.div_pos reached step)
  | succ left ih =>
      unfold search
      split
      · rename_i n hit
        exact i.hit_ne_zero tie grid n hit
      · have same : grid - 1 - (left : Int) = grid - ((left + 1 : Nat) : Int) := by omega
        exact ih (grid - 1) (by rw [same]; exact reached)

theorem estimate_small : ∀ k : Nat, k < 2200 →
    let power : Int := (k : Int) - 1100
    let estimate := power * 30103 / 100000
    2 * twoTo (-power).toNat * tenTo (estimate - 17).toNat
      ≤ twoTo power.toNat * tenTo (17 - estimate).toNat := by
  decide +kernel

theorem reaches_estimate (i : Interval) (nonzero : i.value ≠ 0) (power : Nat)
    (binary : i.denominator = twoTo power)
    (least : -1100 ≤ (i.value.log2 : Int) - power) (greatest : (i.value.log2 : Int) - power < 1100) :
    i.reaches (((i.value.log2 : Int) - power) * 30103 / 100000 - 17) = true := by
  generalize size : (i.value.log2 : Int) - power = e at least greatest ⊢
  have checked := estimate_small (e + 1100).toNat (by omega)
  have shift : (((e + 1100).toNat : Nat) : Int) - 1100 = e := by omega
  simp only [shift] at checked
  simp only [reaches, decide_eq_true_eq, binary]
  generalize e * 30103 / 100000 = estimate at checked ⊢
  have flipped : (-(estimate - 17)).toNat = (17 - estimate).toNat := by omega
  rw [flipped]
  have low := twoTo_log2_le i.value nonzero
  -- Both sides are brought over the power of two that value and denominator share.
  have value : i.value.log2 = min i.value.log2 power + e.toNat := by omega
  have denominator : power = min i.value.log2 power + (-e).toNat := by omega
  rw [value, twoTo_add] at low
  rw [denominator, twoTo_add]
  generalize twoTo (min i.value.log2 power) = shared at low ⊢
  generalize tenTo (estimate - 17).toNat = a at checked ⊢
  generalize tenTo (17 - estimate).toNat = b at checked ⊢
  calc shared * twoTo (-e).toNat * a
      = shared * (twoTo (-e).toNat * a) := Nat.mul_assoc _ _ _
    _ ≤ shared * (2 * twoTo (-e).toNat * a) := by
        apply Nat.mul_le_mul_left
        rw [Nat.mul_assoc]
        exact Nat.le_mul_of_pos_left _ (by decide)
    _ ≤ shared * (twoTo e.toNat * b) := Nat.mul_le_mul_left _ checked
    _ = shared * twoTo e.toNat * b := (Nat.mul_assoc _ _ _).symm
    _ ≤ i.value * b := Nat.mul_le_mul_right _ low

theorem reaches_magnitude (i : Interval) (nonzero : i.value ≠ 0) (power : Nat)
    (binary : i.denominator = twoTo power)
    (least : -1100 ≤ (i.value.log2 : Int) - power) (greatest : (i.value.log2 : Int) - power < 1100) :
    i.reaches (i.magnitude - 16) = true := by
  have estimated := i.reaches_estimate nonzero power binary least greatest
  have log : i.denominator.log2 = power := by rw [binary, log2_twoTo]
  simp only [magnitude, log]
  generalize ((i.value.log2 : Int) - power) * 30103 / 100000 = estimate at estimated ⊢
  split
  · have same : estimate - 1 - 16 = estimate - 17 := by omega
    rwa [same]
  · rename_i reached
    split
    · rename_i next
      exact i.reaches_sub (estimate + 1) 16 next
    · exact i.reaches_sub estimate 16 (by simpa using reached)

end Interval

theorem eq_of_toBits (x y : Float) (same : x.toBits = y.toBits) : x = y := by
  obtain ⟨⟨bits, _⟩⟩ := x
  obtain ⟨⟨others, _⟩⟩ := y
  cases (show bits = others from same)
  rfl

theorem significand_ne_zero (x : Float) (nonzero : (x == 0) = false) :
    (Binary.ofFloat x).significand ≠ 0 := by
  intro zero
  have bits : x.toBits.toNat % fractionLimit = 0 ∧ x.toBits.toNat / fractionLimit % fieldLimit = 0 := by
    simp only [Binary.ofFloat] at zero
    split at zero
    · rename_i field
      exact ⟨zero, field⟩
    · simp only [fractionLimit] at zero
      omega
  have word : x.toBits.toNat < 0x10000000000000000 := x.toBits.toNat_lt
  have cases : x.toBits = 0 ∨ x.toBits = 0x8000000000000000 := by
    simp only [fractionLimit, fieldLimit] at bits
    have : x.toBits.toNat = 0 ∨ x.toBits.toNat = 0x8000000000000000 := by omega
    rcases this with low | high
    · exact Or.inl (UInt64.toNat_inj.mp low)
    · exact Or.inr (UInt64.toNat_inj.mp high)
  rcases cases with plus | minus
  · have same := eq_of_toBits x (Float.ofBits 0) (plus.trans (by decide +kernel))
    exact absurd nonzero (by rw [same]; decide +kernel)
  · have same := eq_of_toBits x (Float.ofBits 0x8000000000000000) (minus.trans (by decide +kernel))
    exact absurd nonzero (by rw [same]; decide +kernel)

theorem ofFloat_bounds (x : Float) :
    (Binary.ofFloat x).significand < twoTo 53 ∧ -1074 ≤ (Binary.ofFloat x).exponent ∧
      (Binary.ofFloat x).exponent ≤ 972 := by
  have field : x.toBits.toNat / fractionLimit % fieldLimit < 2048 := Nat.mod_lt _ (by decide)
  have fraction : x.toBits.toNat % fractionLimit < fractionLimit := Nat.mod_lt _ (by decide)
  have limit : twoTo 53 = 2 * fractionLimit := by decide
  rw [limit]
  simp only [Binary.ofFloat]
  by_cases subnormal : x.toBits.toNat / fractionLimit % fieldLimit = 0
  · rw [if_pos subnormal]
    dsimp only
    omega
  · rw [if_neg subnormal]
    dsimp only
    omega

theorem shortest_significand (tie : Tie) (x : Float) (nonzero : (x == 0) = false) :
    (shortest tie x).significand ≠ 0 := by
  obtain ⟨small, least, greatest⟩ := ofFloat_bounds x
  have positive := significand_ne_zero x nonzero
  simp only [shortest]
  generalize Binary.ofFloat x = b at small least greatest positive ⊢
  generalize size : (b.exponent - 2).toNat = up
  have value : (Interval.ofBinary b).value = 4 * b.significand * twoTo up := by
    simp only [Interval.ofBinary, size]
  have nonzero : (Interval.ofBinary b).value ≠ 0 := by
    have := Nat.mul_pos (Nat.mul_pos (by decide : 0 < 4) (Nat.pos_of_ne_zero positive)) (twoTo_pos up)
    omega
  have low : up ≤ (Interval.ofBinary b).value.log2 := by
    apply le_log2_of_twoTo_le _ _ nonzero
    rw [value]
    exact Nat.le_mul_of_pos_left _ (by omega)
  have high : (Interval.ofBinary b).value.log2 < 55 + up := by
    apply log2_lt_of_lt_twoTo _ _ nonzero
    rw [value, twoTo_add]
    have four : twoTo 55 = 4 * twoTo 53 := by decide
    exact Nat.mul_lt_mul_of_pos_right (by omega) (twoTo_pos up)
  have reached := Interval.reaches_magnitude (Interval.ofBinary b) nonzero (-(b.exponent - 2)).toNat
    rfl (by omega) (by omega)
  exact Interval.search_significand _ tie 16 _ (twoTo_pos _) reached

end Stencil.Decimal
