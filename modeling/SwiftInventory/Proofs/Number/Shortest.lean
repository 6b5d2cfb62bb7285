import Mathlib.Tactic.Ring
import SwiftInventory.Proofs.Number.Rounding

namespace SwiftInventory

variable {num den : ℕ}

theorem roundDiv_near (num : ℕ) (hden : 0 < den) :
    2 * (roundDiv num den * den) ≤ 2 * num + den ∧ 2 * num ≤ 2 * (roundDiv num den * den) + den := by
  have hdiv : den * (num / den) + num % den = num := Nat.div_add_mod num den
  have hmod : num % den < den := Nat.mod_lt num hden
  have hquot : num / den * den = den * (num / den) := Nat.mul_comm _ _
  simp only [roundDiv, Bool.or_eq_true, Bool.and_eq_true, decide_eq_true_eq, beq_iff_eq]
  split
  · omega
  · rw [Nat.add_mul, Nat.one_mul]
    omega

namespace FiniteDouble

variable {x : FiniteDouble} {power : ℤ} {n : ℕ}

/-- The grid and the double, both counted in quarters of the last bit. -/
def gridStep (x : FiniteDouble) (power : ℤ) : ℕ := scale 10 power * scale 2 (-(x.exponent - 2))

def quarter (x : FiniteDouble) (power : ℤ) : ℕ := scale 10 (-power) * scale 2 (x.exponent - 2)

def quartersBelow (x : FiniteDouble) : ℕ :=
  if 2 * x.mantissa == mantissaBound && leastExponent < x.exponent then 1 else 2

def readsBack (x : FiniteDouble) (power : ℤ) (n : ℕ) : Bool :=
  if x.mantissa % 2 == 0 then
    (4 * x.mantissa - x.quartersBelow) * x.quarter power ≤ n * x.gridStep power &&
      n * x.gridStep power ≤ (4 * x.mantissa + 2) * x.quarter power
  else
    (4 * x.mantissa - x.quartersBelow) * x.quarter power < n * x.gridStep power &&
      n * x.gridStep power < (4 * x.mantissa + 2) * x.quarter power

def gridFloor (x : FiniteDouble) (power : ℤ) : ℕ :=
  4 * x.mantissa * x.quarter power / x.gridStep power

def gridNearest (x : FiniteDouble) (power : ℤ) : ℕ :=
  roundDiv (4 * x.mantissa * x.quarter power) (x.gridStep power)

theorem onGrid?_eq (x : FiniteDouble) (power : ℤ) :
    x.onGrid? power =
      if x.readsBack power (x.gridNearest power) then some (x.gridNearest power)
      else if x.readsBack power (x.gridFloor power) then some (x.gridFloor power)
      else if x.readsBack power (x.gridFloor power + 1) then some (x.gridFloor power + 1)
      else none := rfl

theorem gridStep_pos (x : FiniteDouble) (power : ℤ) : 0 < x.gridStep power :=
  Nat.mul_pos (scale_pos (by decide) _) (scale_pos (by decide) _)

theorem quarter_pos (x : FiniteDouble) (power : ℤ) : 0 < x.quarter power :=
  Nat.mul_pos (scale_pos (by decide) _) (scale_pos (by decide) _)

theorem gridStep_div_quarter (x : FiniteDouble) (power : ℤ) :
    (x.gridStep power : ℚ) / x.quarter power = 4 * (10 ^ power / 2 ^ x.exponent) := by
  have hten := scale_div 10 (by decide) power
  have htwo := scale_div 2 (by decide) (-(x.exponent - 2))
  rw [neg_neg] at htwo
  rw [gridStep, quarter, Nat.cast_mul, Nat.cast_mul, mul_div_mul_comm, hten, htwo, zpow_neg,
    zpow_sub₀ (by norm_num)]
  push_cast
  field_simp

theorem gridPoint_eq (x : FiniteDouble) (power : ℤ) (n : ℕ) :
    (n * x.gridStep power : ℚ) / x.quarter power = 4 * (n * 10 ^ power / 2 ^ x.exponent) := by
  rw [mul_div_assoc, gridStep_div_quarter]
  ring

theorem gapBelow_eq (x : FiniteDouble) : x.gapBelow = x.quartersBelow / 4 := by
  simp only [gapBelow, quartersBelow, Bool.and_eq_true, beq_iff_eq, decide_eq_true_eq]
  split <;> norm_num

theorem quartersBelow_le (x : FiniteDouble) : x.quartersBelow ≤ 2 := by
  rw [quartersBelow]
  split <;> decide

theorem quartersBelow_cast (hm : 0 < x.mantissa) :
    ((4 * x.mantissa - x.quartersBelow : ℕ) : ℚ) = 4 * (x.mantissa - x.gapBelow) := by
  have hbelow := x.quartersBelow_le
  rw [Nat.cast_sub (by omega), gapBelow_eq]
  push_cast
  ring

theorem low_le_iff (hm : 0 < x.mantissa) :
    (4 * x.mantissa - x.quartersBelow) * x.quarter power ≤ n * x.gridStep power ↔
      x.mantissa - x.gapBelow ≤ n * 10 ^ power / 2 ^ x.exponent := by
  have hpos : (0 : ℚ) < x.quarter power := by exact_mod_cast x.quarter_pos power
  rw [← Nat.cast_le (α := ℚ), Nat.cast_mul, Nat.cast_mul, ← le_div_iff₀ hpos, gridPoint_eq,
    quartersBelow_cast hm]
  exact mul_le_mul_iff_right₀ four_pos

theorem low_lt_iff (hm : 0 < x.mantissa) :
    (4 * x.mantissa - x.quartersBelow) * x.quarter power < n * x.gridStep power ↔
      x.mantissa - x.gapBelow < n * 10 ^ power / 2 ^ x.exponent := by
  have hpos : (0 : ℚ) < x.quarter power := by exact_mod_cast x.quarter_pos power
  rw [← Nat.cast_lt (α := ℚ), Nat.cast_mul, Nat.cast_mul, ← lt_div_iff₀ hpos, gridPoint_eq,
    quartersBelow_cast hm]
  exact mul_lt_mul_iff_right₀ four_pos

theorem quartersAbove_cast (x : FiniteDouble) :
    ((4 * x.mantissa + 2 : ℕ) : ℚ) = 4 * (x.mantissa + 1 / 2) := by
  push_cast
  ring

theorem high_le_iff :
    n * x.gridStep power ≤ (4 * x.mantissa + 2) * x.quarter power ↔
      (n * 10 ^ power / 2 ^ x.exponent : ℚ) ≤ x.mantissa + 1 / 2 := by
  have hpos : (0 : ℚ) < x.quarter power := by exact_mod_cast x.quarter_pos power
  rw [← Nat.cast_le (α := ℚ), Nat.cast_mul, Nat.cast_mul, ← div_le_iff₀ hpos, gridPoint_eq,
    quartersAbove_cast]
  exact mul_le_mul_iff_right₀ four_pos

theorem high_lt_iff :
    n * x.gridStep power < (4 * x.mantissa + 2) * x.quarter power ↔
      (n * 10 ^ power / 2 ^ x.exponent : ℚ) < x.mantissa + 1 / 2 := by
  have hpos : (0 : ℚ) < x.quarter power := by exact_mod_cast x.quarter_pos power
  rw [← Nat.cast_lt (α := ℚ), Nat.cast_mul, Nat.cast_mul, ← div_lt_iff₀ hpos, gridPoint_eq,
    quartersAbove_cast]
  exact mul_lt_mul_iff_right₀ four_pos

theorem readsBack_iff (hm : 0 < x.mantissa) :
    x.readsBack power n = true ↔ x.IsNearest (n * 10 ^ power) := by
  rw [readsBack]
  by_cases heven : x.mantissa % 2 = 0
  · rw [if_pos (beq_of_eq heven), Bool.and_eq_true, decide_eq_true_eq, decide_eq_true_eq,
      low_le_iff hm, high_le_iff]
    exact ⟨fun h ↦ ⟨h.1, h.2, .inl heven⟩, fun h ↦ ⟨h.low, h.high⟩⟩
  · rw [if_neg (by simpa using heven), Bool.and_eq_true, decide_eq_true_eq, decide_eq_true_eq,
      low_lt_iff hm, high_lt_iff]
    exact ⟨fun h ↦ ⟨h.1.le, h.2.le, .inr h⟩, fun h ↦ h.tie.resolve_left heven⟩

theorem isNearest_gridNearest (h : (10 : ℚ) ^ power < 2 ^ (x.exponent - 1)) :
    x.IsNearest (x.gridNearest power * 10 ^ power) := by
  have hstep := gridStep_div_quarter x power
  have hpoint := gridPoint_eq x power (x.gridNearest power)
  have hpos : (0 : ℚ) < x.quarter power := by exact_mod_cast x.quarter_pos power
  have hlast : (0 : ℚ) < 2 ^ x.exponent := zpow_pos two_pos _
  have hfine : (x.gridStep power : ℚ) / x.quarter power < 2 := by
    rw [zpow_sub₀ two_ne_zero, zpow_one, lt_div_iff₀ two_pos] at h
    have hratio : (10 : ℚ) ^ power / 2 ^ x.exponent < 1 / 2 := by
      rw [div_lt_iff₀ hlast]
      linarith
    rw [hstep]
    linarith
  obtain ⟨hlow, hhigh⟩ := roundDiv_near (4 * x.mantissa * x.quarter power)
    (x.gridStep_pos power)
  have hlow : (2 * (x.gridNearest power * x.gridStep power) : ℚ) ≤
      2 * (4 * x.mantissa * x.quarter power) + x.gridStep power := by exact_mod_cast hlow
  have hhigh : (2 * (4 * x.mantissa * x.quarter power) : ℚ) ≤
      2 * (x.gridNearest power * x.gridStep power) + x.gridStep power := by exact_mod_cast hhigh
  rw [div_lt_iff₀ hpos] at hfine
  rw [div_eq_iff hpos.ne'] at hpoint
  rw [hpoint] at hlow hhigh
  -- Half a step of the grid is less than a quarter of the last bit, which fits into either gap.
  have hgap : (1 : ℚ) / 4 ≤ x.gapBelow := by
    rw [gapBelow]
    split <;> norm_num
  have habove : (x.gridNearest power * 10 ^ power / 2 ^ x.exponent : ℚ) < x.mantissa + 1 / 4 := by
    refine lt_of_mul_lt_mul_right ?_ hpos.le
    linarith
  have hbelow : (x.mantissa : ℚ) - 1 / 4 < x.gridNearest power * 10 ^ power / 2 ^ x.exponent := by
    refine lt_of_mul_lt_mul_right ?_ hpos.le
    linarith
  exact ⟨by linarith, by linarith, .inr ⟨by linarith, by linarith⟩⟩

theorem isNearest_of_onGrid? (hm : 0 < x.mantissa) (h : x.onGrid? power = some n) :
    x.IsNearest (n * 10 ^ power) := by
  rw [onGrid?_eq] at h
  split at h
  · cases h
    exact (readsBack_iff hm).1 ‹_›
  · split at h
    · cases h
      exact (readsBack_iff hm).1 ‹_›
    · split at h
      · cases h
        exact (readsBack_iff hm).1 ‹_›
      · cases h

theorem onGrid?_of_fine (hm : 0 < x.mantissa) (h : (10 : ℚ) ^ power < 2 ^ (x.exponent - 1)) :
    x.onGrid? power = some (x.gridNearest power) := by
  rw [onGrid?_eq, if_pos ((readsBack_iff hm).2 (isNearest_gridNearest h))]

theorem onGrid?_shortestFrom (steps : ℕ) (k : ℕ) (hk : k < steps)
    (h : (x.onGrid? (power - k)).isSome = true) :
    x.onGrid? (x.shortestFrom steps power).2 = some (x.shortestFrom steps power).1 := by
  -- A grid that is `k` steps away keeps the search from running out of steps.
  induction steps generalizing power k with
  | zero => exact absurd hk (Nat.not_lt_zero k)
  | succ steps ih =>
    rw [shortestFrom]
    cases hgrid : x.onGrid? power with
    | some digits => exact hgrid
    | none =>
      cases k with
      | zero => simp [hgrid] at h
      | succ k =>
        refine ih k (Nat.lt_of_succ_lt_succ hk) ?_
        have hpower : power - 1 - k = power - (k + 1 : ℕ) := by omega
        rwa [hpower]

theorem zpow_pow (a : ℚ) (p : ℤ) (k : ℕ) : (a ^ p) ^ k = (a ^ k) ^ p := by
  rw [← zpow_natCast, ← zpow_natCast, ← zpow_mul, ← zpow_mul, mul_comm]

theorem two_zpow_lt_pow {a e : ℤ} {k : ℕ} (h : a < k * e) : (2 : ℚ) ^ a < (2 ^ e) ^ k := by
  rw [← zpow_natCast, ← zpow_mul, mul_comm]
  exact zpow_lt_zpow_right₀ one_lt_two h

/-- `10 ^ 3` is a little less than `2 ^ 10`, and `10 ^ 7` a little more than `2 ^ 23`. -/
theorem ten_zpow_lt_two_zpow {p e : ℤ} (hpos : 0 ≤ p → 10 * p < 3 * e)
    (hneg : p < 0 → 23 * p < 7 * e) : (10 : ℚ) ^ p < 2 ^ e := by
  have htwo : (0 : ℚ) ≤ 2 ^ e := zpow_nonneg (by norm_num) e
  rcases Int.lt_or_le p 0 with h | h
  · refine lt_of_pow_lt_pow_left₀ 7 htwo ?_
    obtain ⟨n, rfl⟩ : ∃ n : ℕ, p = -n := ⟨p.natAbs, by omega⟩
    have hle : ((10 : ℚ) ^ 7) ^ (-n : ℤ) ≤ ((2 : ℚ) ^ 23) ^ (-n : ℤ) := by
      rw [zpow_neg, zpow_neg, zpow_natCast, zpow_natCast]
      exact inv_anti₀ (by positivity) (pow_le_pow_left₀ (by norm_num) (by norm_num) n)
    rw [zpow_pow]
    refine lt_of_le_of_lt hle ?_
    rw [← zpow_natCast (2 : ℚ) 23, ← zpow_mul]
    exact two_zpow_lt_pow (hneg h)
  · refine lt_of_pow_lt_pow_left₀ 3 htwo ?_
    obtain ⟨n, rfl⟩ : ∃ n : ℕ, p = n := ⟨p.natAbs, by omega⟩
    have hle : ((10 : ℚ) ^ 3) ^ (n : ℤ) ≤ ((2 : ℚ) ^ 10) ^ (n : ℤ) := by
      rw [zpow_natCast, zpow_natCast]
      exact pow_le_pow_left₀ (by norm_num) (by norm_num) n
    rw [zpow_pow]
    refine lt_of_le_of_lt hle ?_
    rw [← zpow_natCast (2 : ℚ) 10, ← zpow_mul]
    exact two_zpow_lt_pow (hpos h)

/-- The last grid of the search is fine enough for every double. -/
theorem shortest_isNearest (hx : x.IsCanonical) (hm : 0 < x.mantissa) :
    x.IsNearest (x.shortest.1 * 10 ^ x.shortest.2) := by
  refine isNearest_of_onGrid? hm (onGrid?_shortestFrom 24 23 (by decide) ?_)
  rw [onGrid?_of_fine hm]
  · rfl
  · have hbits : x.mantissa.log2 < 53 := (Nat.log2_lt hm.ne').2 hx.lt_bound
    have hleast := hx.least_le
    have hgreatest := hx.le_greatest
    rw [leastExponent] at hleast
    rw [greatestExponent] at hgreatest
    refine ten_zpow_lt_two_zpow (fun h ↦ ?_) fun h ↦ ?_ <;> omega

theorem shortest_pos (hx : x.IsCanonical) (hm : 0 < x.mantissa) : 0 < x.shortest.1 :=
  (shortest_isNearest hx hm).digits_pos hm

end FiniteDouble

end SwiftInventory
