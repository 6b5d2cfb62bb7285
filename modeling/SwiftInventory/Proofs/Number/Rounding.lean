import Mathlib.Algebra.Order.Field.Power
import Mathlib.Algebra.Order.Field.Rat
import Mathlib.Data.Rat.Cast.Order
import Mathlib.Tactic.FieldSimp
import Mathlib.Tactic.Linarith
import Mathlib.Tactic.Positivity
import SwiftInventory.Number.Double

namespace SwiftInventory

variable {num den r : ℕ}

theorem le_roundDiv (hden : 0 < den) (h : 2 * (r * den) ≤ 2 * num + den)
    (htie : r % 2 = 0 ∨ 2 * (r * den) < 2 * num + den) : r ≤ roundDiv num den := by
  have hdiv : den * (num / den) + num % den = num := Nat.div_add_mod num den
  have hmod : num % den < den := Nat.mod_lt num hden
  -- Only next to the quotient does it matter which way a half goes.
  rcases Nat.lt_trichotomy r (num / den + 1) with hlt | heq | hgt
  · rw [roundDiv]
    split <;> omega
  · have hprod : r * den = den * (num / den) + den := by rw [heq, Nat.mul_comm, Nat.mul_add_one]
    simp only [roundDiv, Bool.or_eq_true, Bool.and_eq_true, decide_eq_true_eq, beq_iff_eq]
    split <;> omega
  · have hprod : (num / den + 2) * den ≤ r * den := Nat.mul_le_mul_right den hgt
    rw [Nat.add_mul, Nat.mul_comm (num / den)] at hprod
    omega

theorem roundDiv_le (hden : 0 < den) (h : 2 * num ≤ 2 * (r * den) + den)
    (htie : r % 2 = 0 ∨ 2 * num < 2 * (r * den) + den) : roundDiv num den ≤ r := by
  have hdiv : den * (num / den) + num % den = num := Nat.div_add_mod num den
  have hmod : num % den < den := Nat.mod_lt num hden
  rcases Nat.lt_trichotomy r (num / den) with hlt | heq | hgt
  · have hprod : (r + 1) * den ≤ num / den * den := Nat.mul_le_mul_right den hlt
    rw [Nat.add_mul, Nat.mul_comm (num / den)] at hprod
    omega
  · have hprod : r * den = den * (num / den) := by rw [heq, Nat.mul_comm]
    simp only [roundDiv, Bool.or_eq_true, Bool.and_eq_true, decide_eq_true_eq, beq_iff_eq]
    split <;> omega
  · rw [roundDiv]
    split <;> omega

namespace FiniteDouble

theorem scale_pos {base : ℕ} (hbase : 0 < base) (power : ℤ) : 0 < scale base power :=
  Nat.pow_pos hbase

theorem scale_div (base : ℕ) (hbase : 0 < base) (power : ℤ) :
    (scale base power : ℚ) / scale base (-power) = (base : ℚ) ^ power := by
  have hne : (base : ℚ) ≠ 0 := by exact_mod_cast hbase.ne'
  rcases Int.eq_nat_or_neg power with ⟨n, rfl | rfl⟩
  · simp [scale]
  · simp [scale]

variable {e : ℤ} {q : ℚ}

theorem inUnits_value (num den : ℕ) (e : ℤ) :
    ((num * scale 2 (-e) : ℕ) : ℚ) / (den * scale 2 e : ℕ) = (num : ℚ) / den / 2 ^ e := by
  have hscale := scale_div 2 (by decide) (-e)
  rw [neg_neg, Nat.cast_ofNat, zpow_neg] at hscale
  rw [Nat.cast_mul, Nat.cast_mul, mul_div_mul_comm, hscale]
  rfl

theorem le_inUnits (hden : 0 < den) (h : (r : ℚ) - 1 / 2 ≤ (num : ℚ) / den / 2 ^ e)
    (htie : r % 2 = 0 ∨ (r : ℚ) - 1 / 2 < (num : ℚ) / den / 2 ^ e) : r ≤ inUnits num den e := by
  have hpos : 0 < den * scale 2 e := Nat.mul_pos hden (scale_pos (by decide) e)
  have hposq : (0 : ℚ) < (den * scale 2 e : ℕ) := by exact_mod_cast hpos
  rw [← inUnits_value, le_div_iff₀ hposq] at h
  rw [← inUnits_value, lt_div_iff₀ hposq] at htie
  refine le_roundDiv hpos ?_ (htie.imp_right fun htie ↦ ?_)
  · have h' : (2 : ℚ) * (r * (den * scale 2 e : ℕ)) ≤
        2 * (num * scale 2 (-e) : ℕ) + (den * scale 2 e : ℕ) := by linarith
    exact_mod_cast h'
  · have h' : (2 : ℚ) * (r * (den * scale 2 e : ℕ)) <
        2 * (num * scale 2 (-e) : ℕ) + (den * scale 2 e : ℕ) := by linarith
    exact_mod_cast h'

theorem inUnits_le (hden : 0 < den) (h : (num : ℚ) / den / 2 ^ e ≤ r + 1 / 2)
    (htie : r % 2 = 0 ∨ (num : ℚ) / den / 2 ^ e < r + 1 / 2) : inUnits num den e ≤ r := by
  have hpos : 0 < den * scale 2 e := Nat.mul_pos hden (scale_pos (by decide) e)
  have hposq : (0 : ℚ) < (den * scale 2 e : ℕ) := by exact_mod_cast hpos
  rw [← inUnits_value, div_le_iff₀ hposq] at h
  rw [← inUnits_value, div_lt_iff₀ hposq] at htie
  refine roundDiv_le hpos ?_ (htie.imp_right fun htie ↦ ?_)
  · have h' : (2 : ℚ) * (num * scale 2 (-e) : ℕ) ≤
        2 * (r * (den * scale 2 e : ℕ)) + (den * scale 2 e : ℕ) := by linarith
    exact_mod_cast h'
  · have h' : (2 : ℚ) * (num * scale 2 (-e) : ℕ) <
        2 * (r * (den * scale 2 e : ℕ)) + (den * scale 2 e : ℕ) := by linarith
    exact_mod_cast h'

theorem log2_bounds (hnum : 0 < num) (hden : 0 < den) :
    (2 : ℚ) ^ ((num.log2 : ℤ) - den.log2 - 1) < (num : ℚ) / den ∧
      (num : ℚ) / den < 2 ^ ((num.log2 : ℤ) - den.log2 + 1) := by
  have hn : (2 : ℚ) ^ num.log2 ≤ num := by exact_mod_cast Nat.log2_self_le hnum.ne'
  have hn' : (num : ℚ) < 2 ^ (num.log2 + 1) := by exact_mod_cast Nat.lt_log2_self
  have hd : (2 : ℚ) ^ den.log2 ≤ den := by exact_mod_cast Nat.log2_self_le hden.ne'
  have hd' : (den : ℚ) < 2 ^ (den.log2 + 1) := by exact_mod_cast Nat.lt_log2_self
  have hdpos : (0 : ℚ) < den := by exact_mod_cast hden
  have hnpos : (0 : ℚ) < num := by exact_mod_cast hnum
  constructor
  · have hpow : (2 : ℚ) ^ ((num.log2 : ℤ) - den.log2 - 1) = 2 ^ num.log2 / 2 ^ (den.log2 + 1) := by
      rw [sub_sub, zpow_sub₀ two_ne_zero, zpow_natCast]
      norm_cast
    rw [hpow]
    exact div_lt_div₀' hn hd' hnpos hdpos
  · have hpow : (2 : ℚ) ^ ((num.log2 : ℤ) - den.log2 + 1) = 2 ^ (num.log2 + 1) / 2 ^ den.log2 := by
      rw [sub_add_eq_add_sub, zpow_sub₀ two_ne_zero, zpow_natCast]
      norm_cast
    rw [hpow]
    exact div_lt_div₀ hn' hd (by positivity) (by positivity)

/-- All bits of the mantissa are used unless the exponent is the least one. -/
structure IsCanonical (x : FiniteDouble) : Prop where
  lt_bound : x.mantissa < mantissaBound
  least_le : leastExponent ≤ x.exponent
  le_greatest : x.exponent ≤ greatestExponent
  full : mantissaBound ≤ 2 * x.mantissa ∨ x.exponent = leastExponent

/-- Half the way to the next double below, counted in the last bit. -/
def gapBelow (x : FiniteDouble) : ℚ :=
  if 2 * x.mantissa = mantissaBound ∧ leastExponent < x.exponent then 1 / 4 else 1 / 2

/-- The values nearest to a double; those halfway between two belong to the even one. -/
structure IsNearest (x : FiniteDouble) (q : ℚ) : Prop where
  low : x.mantissa - x.gapBelow ≤ q / 2 ^ x.exponent
  high : q / 2 ^ x.exponent ≤ x.mantissa + 1 / 2
  tie : x.mantissa % 2 = 0 ∨
    x.mantissa - x.gapBelow < q / 2 ^ x.exponent ∧ q / 2 ^ x.exponent < x.mantissa + 1 / 2

variable {x : FiniteDouble}

theorem gapBelow_le (x : FiniteDouble) : x.gapBelow ≤ 1 / 2 := by
  rw [gapBelow]
  split <;> norm_num

theorem mantissaBound_eq : mantissaBound = 9007199254740992 := by decide

theorem IsNearest.inUnits (hden : 0 < den) (h : x.IsNearest ((num : ℚ) / den)) :
    FiniteDouble.inUnits num den x.exponent = x.mantissa := by
  have hgap := x.gapBelow_le
  refine le_antisymm (inUnits_le hden h.high (h.tie.imp_right (·.2)))
    (le_inUnits hden ?_ (h.tie.imp_right fun h ↦ ?_))
  · exact le_trans (by linarith) h.low
  · exact lt_of_le_of_lt (by linarith) h.1

theorem IsNearest.bound_le_twice (h : x.IsNearest q) (hfull : mantissaBound ≤ 2 * x.mantissa)
    (hleast : leastExponent < x.exponent) :
    (mantissaBound : ℚ) - 1 / 2 ≤ 2 * (q / 2 ^ x.exponent) := by
  have hlow := h.low
  rw [gapBelow] at hlow
  rcases Nat.lt_or_eq_of_le hfull with hlt | heq
  · rw [if_neg fun h ↦ hlt.ne h.1.symm] at hlow
    have hm : (mantissaBound : ℚ) + 1 ≤ 2 * x.mantissa := by exact_mod_cast hlt
    linarith
  · rw [if_pos ⟨heq.symm, hleast⟩] at hlow
    have hm : (mantissaBound : ℚ) = 2 * x.mantissa := by exact_mod_cast heq
    linarith

theorem div_zpow_pred (q : ℚ) (e : ℤ) : q / 2 ^ (e - 1) = 2 * (q / 2 ^ e) := by
  rw [zpow_sub₀ two_ne_zero, zpow_one]
  field_simp

theorem IsNearest.bound_le_inUnits (hden : 0 < den) (h : x.IsNearest ((num : ℚ) / den))
    (hfull : mantissaBound ≤ 2 * x.mantissa) (hleast : leastExponent < x.exponent) :
    mantissaBound ≤ FiniteDouble.inUnits num den (x.exponent - 1) := by
  refine le_inUnits hden ?_ (.inl (by decide))
  rw [div_zpow_pred]
  exact h.bound_le_twice hfull hleast

theorem IsNearest.bound_le_inUnits' (hden : 0 < den) (h : x.IsNearest ((num : ℚ) / den))
    (hfull : mantissaBound ≤ 2 * x.mantissa) (hleast : leastExponent < x.exponent) :
    mantissaBound ≤ FiniteDouble.inUnits num den (x.exponent - 1 - 1) := by
  have htwice := h.bound_le_twice hfull hleast
  rw [mantissaBound_eq] at htwice
  refine le_inUnits hden ?_ (.inl (by decide))
  rw [div_zpow_pred, div_zpow_pred, mantissaBound_eq]
  linarith

theorem log2_lt_of_div_lt (hnum : 0 < num) (hden : 0 < den) {k : ℤ}
    (h : (num : ℚ) / den / 2 ^ e < 2 ^ k) : (num.log2 : ℤ) - den.log2 < k + e + 1 := by
  have hpos : (0 : ℚ) < 2 ^ e := zpow_pos two_pos e
  rw [div_lt_iff₀ hpos, ← zpow_add₀ two_ne_zero] at h
  have hlt := (log2_bounds hnum hden).1.trans h
  rw [zpow_lt_zpow_iff_right₀ one_lt_two] at hlt
  omega

theorem lt_log2_of_le_div (hnum : 0 < num) (hden : 0 < den) {k : ℤ}
    (h : (2 : ℚ) ^ k ≤ (num : ℚ) / den / 2 ^ e) : k + e < (num.log2 : ℤ) - den.log2 + 1 := by
  have hpos : (0 : ℚ) < 2 ^ e := zpow_pos two_pos e
  rw [le_div_iff₀ hpos, ← zpow_add₀ two_ne_zero] at h
  have hlt := h.trans_lt (log2_bounds hnum hden).2
  rwa [zpow_lt_zpow_iff_right₀ one_lt_two] at hlt

/-- The exponent that the numbers of bits suggest. -/
def guess (num den : ℕ) : ℤ := max ((num.log2 : ℤ) - den.log2 - 53) leastExponent

theorem IsNearest.guess_of_not_full (hnum : 0 < num) (hden : 0 < den)
    (h : x.IsNearest ((num : ℚ) / den)) (hfull : 2 * x.mantissa < mantissaBound)
    (hleast : x.exponent = leastExponent) : guess num den = x.exponent := by
  have hm : (x.mantissa : ℚ) + 1 ≤ 2 ^ (52 : ℤ) := by
    have hm : x.mantissa + 1 ≤ 2 ^ 52 := by
      rw [mantissaBound_eq] at hfull
      omega
    exact_mod_cast hm
  have hlog := log2_lt_of_div_lt hnum hden (h.high.trans_lt (lt_of_lt_of_le (by linarith) hm))
  rw [guess]
  omega

/-- The guess can be one too small, or two for the least mantissa. -/
theorem IsNearest.guess_of_full (hnum : 0 < num) (hden : 0 < den) (hx : x.IsCanonical)
    (h : x.IsNearest ((num : ℚ) / den)) (hfull : mantissaBound ≤ 2 * x.mantissa) :
    guess num den = x.exponent ∨ leastExponent < x.exponent ∧
      (guess num den = x.exponent - 1 ∨ guess num den = x.exponent - 1 - 1 ∧
        2 * x.mantissa = mantissaBound ∧ (num : ℚ) / den / 2 ^ x.exponent < x.mantissa) := by
  have hgap := x.gapBelow_le
  have hlow := h.low
  have hhigh := h.high
  have hlt := hx.lt_bound
  have hle := hx.least_le
  rw [mantissaBound_eq] at hfull hlt ⊢
  have hmlow : (4503599627370496 : ℚ) ≤ x.mantissa := by
    have hm : 4503599627370496 ≤ x.mantissa := by omega
    exact_mod_cast hm
  have hmhigh : (x.mantissa : ℚ) + 1 ≤ 9007199254740992 := by exact_mod_cast hlt
  have hbelow := log2_lt_of_div_lt (k := 53) hnum hden (lt_of_le_of_lt hhigh (by norm_num; linarith))
  have habove := lt_log2_of_le_div (k := 51) hnum hden (le_trans (by norm_num; linarith) hlow)
  -- A value below the least full mantissa has a bit less, and the guess is one smaller for it.
  by_cases hshort : (num : ℚ) / den / 2 ^ x.exponent < 2 ^ (52 : ℤ)
  · have hm : x.mantissa = 4503599627370496 := by
      have hm : (x.mantissa : ℚ) < 4503599627370497 := by
        norm_num at hshort
        linarith
      have hm : x.mantissa < 4503599627370497 := by exact_mod_cast hm
      omega
    have hunder : (num : ℚ) / den / 2 ^ x.exponent < x.mantissa := by
      rw [hm]
      exact_mod_cast hshort
    have hguess : guess num den = x.exponent ∨ leastExponent < x.exponent ∧
        (guess num den = x.exponent - 1 ∨ guess num den = x.exponent - 1 - 1) := by
      rw [guess]
      omega
    exact hguess.imp_right (.imp_right (.imp_right fun hg ↦ ⟨hg, by omega, hunder⟩))
  · have hlog := lt_log2_of_le_div (k := 52) hnum hden (not_lt.1 hshort)
    rw [guess]
    omega

theorem ofFraction_eq (hnum : 0 < num) (negative : Bool) :
    ofFraction negative num den =
      if inUnits num den (guess num den) < mantissaBound then
        ⟨negative, inUnits num den (guess num den), guess num den⟩
      else if inUnits num den (guess num den + 1) < mantissaBound then
        ⟨negative, inUnits num den (guess num den + 1), guess num den + 1⟩
      else ⟨negative, inUnits num den (guess num den + 1) / 2, guess num den + 2⟩ := by
  have hne : ¬ (num == 0) = true := by simpa using hnum.ne'
  rw [ofFraction, if_neg hne]
  rfl

theorem ofFraction_of_isNearest (hnum : 0 < num) (hden : 0 < den) (hx : x.IsCanonical)
    (h : x.IsNearest ((num : ℚ) / den)) : ofFraction x.negative num den = x := by
  have hunits := h.inUnits hden
  rw [ofFraction_eq hnum]
  by_cases hfull : mantissaBound ≤ 2 * x.mantissa
  · rcases h.guess_of_full hnum hden hx hfull with hg | ⟨hleast, hg | ⟨hg, hm, hunder⟩⟩
    · rw [hg, hunits, if_pos hx.lt_bound]
    · have hmore := h.bound_le_inUnits hden hfull hleast
      rw [hg, if_neg (not_lt.2 hmore), sub_add_cancel, hunits, if_pos hx.lt_bound]
    · -- Both attempts have a bit too many, and halving the second one is exact.
      have hmore := h.bound_le_inUnits hden hfull hleast
      have hmore' := h.bound_le_inUnits' hden hfull hleast
      have hexact : inUnits num den (x.exponent - 1) = mantissaBound := by
        refine le_antisymm (inUnits_le hden ?_ (.inl (by decide))) hmore
        rw [div_zpow_pred]
        have hm : (mantissaBound : ℚ) = 2 * x.mantissa := by exact_mod_cast hm.symm
        linarith
      have hhalf : mantissaBound / 2 = x.mantissa := by omega
      have hexp : x.exponent - 1 - 1 + 2 = x.exponent := by omega
      rw [hg, if_neg (not_lt.2 hmore'), sub_add_cancel, hexact, if_neg (lt_irrefl _), hhalf, hexp]
  · have hleast := hx.full.resolve_left hfull
    rw [h.guess_of_not_full hnum hden (not_le.1 hfull) hleast, hunits, if_pos hx.lt_bound]

theorem IsNearest.half_le (h : x.IsNearest q) (hm : 0 < x.mantissa) :
    2 ^ (x.exponent - 1) ≤ q := by
  have hgap := x.gapBelow_le
  have hlow := h.low
  have hm : (1 : ℚ) ≤ x.mantissa := by exact_mod_cast hm
  have hpos : (0 : ℚ) < 2 ^ x.exponent := zpow_pos two_pos _
  rw [le_div_iff₀ hpos] at hlow
  rw [zpow_sub₀ two_ne_zero, zpow_one]
  refine le_trans ?_ hlow
  rw [div_eq_mul_one_div, mul_comm]
  exact mul_le_mul_of_nonneg_right (by linarith) hpos.le

theorem IsNearest.digits_pos {digits : ℕ} {power : ℤ} (h : x.IsNearest (digits * 10 ^ power))
    (hm : 0 < x.mantissa) : 0 < digits := by
  have hhalf := h.half_le hm
  have hpos : (0 : ℚ) < 2 ^ (x.exponent - 1) := zpow_pos two_pos _
  refine Nat.pos_of_ne_zero fun hzero ↦ ?_
  rw [hzero, Nat.cast_zero, zero_mul] at hhalf
  exact absurd hhalf (not_le.2 hpos)

theorem IsNearest.lt_zpow (h : x.IsNearest q) (hx : x.IsCanonical) :
    q < 2 ^ (53 + x.exponent) := by
  have hhigh := h.high
  have hm : (x.mantissa : ℚ) + 1 ≤ 9007199254740992 := by
    have hlt := hx.lt_bound
    rw [mantissaBound_eq] at hlt
    exact_mod_cast hlt
  have hpos : (0 : ℚ) < 2 ^ x.exponent := zpow_pos two_pos _
  rw [div_le_iff₀ hpos] at hhigh
  rw [zpow_add₀ two_ne_zero]
  refine lt_of_le_of_lt hhigh (mul_lt_mul_of_pos_right ?_ hpos)
  norm_num
  linarith

end FiniteDouble

namespace Double

variable {x : FiniteDouble} {digits : ℕ} {power : ℤ}

theorem ofDecimal_value (digits : ℕ) (power : ℤ) :
    ((digits * FiniteDouble.scale 10 power : ℕ) : ℚ) / FiniteDouble.scale 10 (-power) =
      digits * 10 ^ power := by
  have hscale := FiniteDouble.scale_div 10 (by decide) power
  rw [Nat.cast_ofNat] at hscale
  rw [Nat.cast_mul, mul_div_assoc, hscale]

theorem not_far_above (hx : x.IsCanonical) (hdigits : 0 < digits)
    (h : x.IsNearest (digits * 10 ^ power)) : power ≤ 310 := by
  by_contra hpower
  have hgreatest := hx.le_greatest
  have hdigits : (1 : ℚ) ≤ digits := by exact_mod_cast hdigits
  have hten : (10 : ℚ) ^ (311 : ℤ) ≤ 10 ^ power := zpow_le_zpow_right₀ (by norm_num) (by omega)
  have htwo : (2 : ℚ) ^ (53 + x.exponent) ≤ 2 ^ (1024 : ℤ) :=
    zpow_le_zpow_right₀ one_le_two (by rw [FiniteDouble.greatestExponent] at hgreatest; omega)
  have hgap : (2 : ℚ) ^ (1024 : ℤ) < 10 ^ (311 : ℤ) := by
    have hnat : 2 ^ 1024 < 10 ^ 311 := by decide +kernel
    exact_mod_cast hnat
  have hvalue : (10 : ℚ) ^ power ≤ digits * 10 ^ power :=
    le_mul_of_one_le_left (zpow_nonneg (by norm_num) _) hdigits
  exact lt_asymm ((hten.trans hvalue).trans_lt ((h.lt_zpow hx).trans_le htwo)) hgap

theorem not_far_below (hx : x.IsCanonical) (hm : 0 < x.mantissa)
    (h : x.IsNearest (digits * 10 ^ power)) : -1100 ≤ power + digits.log2 := by
  by_contra hpower
  have hleast := hx.least_le
  have hdigits : (digits : ℚ) < 2 ^ (digits.log2 + 1 : ℤ) := by
    have hlt : (digits : ℚ) < 2 ^ (digits.log2 + 1) := by exact_mod_cast Nat.lt_log2_self
    exact_mod_cast hlt
  have hten : (10 : ℚ) ^ power ≤ 2 ^ power := by
    obtain ⟨n, rfl⟩ : ∃ n : ℕ, power = -n := ⟨power.natAbs, by omega⟩
    rw [zpow_neg, zpow_neg, zpow_natCast, zpow_natCast]
    exact inv_anti₀ (by positivity) (pow_le_pow_left₀ (by norm_num) (by norm_num) n)
  have hsmall : (digits : ℚ) * 10 ^ power < 2 ^ (digits.log2 + 1 + power : ℤ) := by
    rw [zpow_add₀ two_ne_zero]
    exact mul_lt_mul hdigits hten (zpow_pos (by norm_num) _) (zpow_nonneg two_pos.le _)
  have hhalf := (h.half_le hm).trans_lt hsmall
  rw [zpow_lt_zpow_iff_right₀ one_lt_two] at hhalf
  rw [FiniteDouble.leastExponent] at hleast
  omega

/-- A decimal fraction is read as the double that it is nearest to. -/
theorem ofDecimal_of_isNearest (hx : x.IsCanonical) (hm : 0 < x.mantissa)
    (h : x.IsNearest (digits * 10 ^ power)) :
    ofDecimal x.negative digits power = .finite x := by
  have hdigits := h.digits_pos hm
  have habove := not_far_above hx hdigits h
  have hbelow := not_far_below hx hm h
  have hgreatest := hx.le_greatest
  have hnum : 0 < digits * FiniteDouble.scale 10 power :=
    Nat.mul_pos hdigits (FiniteDouble.scale_pos (by decide) _)
  have hden : 0 < FiniteDouble.scale 10 (-power) := FiniteDouble.scale_pos (by decide) _
  rw [← ofDecimal_value] at h
  have hround := FiniteDouble.ofFraction_of_isNearest hnum hden hx h
  -- No number that is far above or far below every double is nearest to one.
  rw [ofDecimal, if_neg (by simp; omega), if_neg (by omega), ofFraction, hround,
    if_neg (by omega)]

end Double

end SwiftInventory
