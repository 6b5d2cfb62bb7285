import SwiftInventory.Proofs.Json.Numeral
import SwiftInventory.Proofs.Number.Shortest

namespace SwiftInventory

open Json (Numeral IsFigures)

namespace Number

def IsWritable : Number → Prop
  | whole _ => True
  | double (.finite x) => x.IsCanonical
  | double _ => False

theorem head?_digits {n : ℕ} (hn : 0 < n) : (digits n).head? ≠ some '0' := by
  induction n using Nat.strong_induction_on with
  | _ n ih =>
    rcases Nat.lt_or_ge n 10 with h | h
    · have hsmall : ∀ n < 10, 0 < n → n.digitChar ≠ '0' := by decide
      rw [digits, Nat.toDigits_of_lt_base h]
      simpa using hsmall n h hn
    · have hhead : (digits n).head? = (digits (n / 10)).head? := by
        rw [digits, digits, Nat.toDigits_of_base_le (by decide) h, List.head?_append,
          Option.or_of_isSome (by simp)]
      rw [hhead]
      exact ih (n / 10) (by omega) (by omega)

theorem isWholePart_digits (n : ℕ) : Json.IsWholePart (digits n) := by
  refine ⟨Numeral.isFigures_toDigits n, ?_⟩
  rcases Nat.eq_zero_or_pos n with rfl | hn
  · exact .inl rfl
  · exact .inr (head?_digits hn)

def wholeNumeral (n : ℤ) : Numeral where
  negative := n < 0
  whole := digits n.natAbs

theorem wholeNumeral_isWellFormed (n : ℤ) : (wholeNumeral n).IsWellFormed :=
  ⟨isWholePart_digits _, fun _ hc ↦ absurd hc List.not_mem_nil⟩

theorem wholeNumeral_text (n : ℤ) : (wholeNumeral n).text = wholeText n := by
  rw [Numeral.text, Numeral.unsignedText, wholeText]
  simp [wholeNumeral, Numeral.fractionText, Numeral.powerText]

theorem wholeNumeral_value (n : ℤ) : (wholeNumeral n).value = .whole n := by
  have hdigits : (wholeNumeral n).digits = n.natAbs := by
    rw [Numeral.digits, wholeNumeral, List.append_nil]
    exact Nat.ofDigitChars_ten_toDigits
  rw [Numeral.value, if_pos ⟨rfl, rfl⟩, hdigits]
  congr 1
  simp only [wholeNumeral, decide_eq_true_eq]
  split <;> omega

variable {figures : List Char} {point : ℤ} {n : ℕ}

def pointed (negative : Bool) (figures : List Char) (point : ℤ) : Numeral :=
  if -4 < point ∧ point ≤ 16 then
    if point ≤ 0 then ⟨negative, ['0'], List.replicate (-point).toNat '0' ++ figures, none⟩
    else if figures.length ≤ point then
      ⟨negative, figures ++ List.replicate (point - figures.length).toNat '0', ['0'], none⟩
    else ⟨negative, figures.take point.toNat, figures.drop point.toNat, none⟩
  else ⟨negative, figures.take 1, figures.drop 1, some (point - 1)⟩

theorem pointed_negative (negative : Bool) :
    (pointed negative figures point).negative = negative := by
  rw [pointed]
  split
  · split
    · rfl
    · split <;> rfl
  · rfl

theorem pointed_text (negative : Bool) (hne : figures ≠ []) :
    (pointed negative figures point).text = sign negative ++ pointedText figures point := by
  rw [Numeral.text, pointed, pointedText]
  simp only [Bool.and_eq_true, decide_eq_true_eq]
  split
  · split
    · simp [Numeral.unsignedText, Numeral.fractionText, Numeral.powerText, hne]
    · split
      · simp [Numeral.unsignedText, Numeral.fractionText, Numeral.powerText]
      · have hdrop : figures.drop point.toNat ≠ [] := by
          rw [ne_eq, List.drop_eq_nil_iff]
          omega
        simp [Numeral.unsignedText, Numeral.fractionText, Numeral.powerText, hdrop]
  · have hdrop : figures.drop 1 = [] ↔ figures.length ≤ 1 := List.drop_eq_nil_iff
    simp only [Numeral.unsignedText, Numeral.fractionText, Numeral.powerText, hdrop,
      Option.elim_some, List.append_assoc]

theorem isDigit_of_mem_replicate {k : ℕ} {c : Char} (h : c ∈ List.replicate k '0') :
    c.isDigit = true := by
  rw [List.eq_of_mem_replicate h]
  decide

theorem isWholePart_append (hfigures : IsFigures figures) (hzero : figures.head? ≠ some '0')
    {more : List Char} (hmore : ∀ c ∈ more, c.isDigit = true) :
    Json.IsWholePart (figures ++ more) := by
  obtain ⟨c, rest, rfl⟩ := List.exists_cons_of_ne_nil hfigures.1
  refine ⟨⟨by simp, fun d hd ↦ ?_⟩, .inr hzero⟩
  rcases List.mem_append.1 hd with hd | hd
  · exact hfigures.2 d hd
  · exact hmore d hd

theorem isWholePart_take (hfigures : IsFigures figures) (hzero : figures.head? ≠ some '0')
    {k : ℕ} (hk : 0 < k) : Json.IsWholePart (figures.take k) := by
  obtain ⟨c, rest, rfl⟩ := List.exists_cons_of_ne_nil hfigures.1
  obtain ⟨k, rfl⟩ := Nat.exists_eq_succ_of_ne_zero hk.ne'
  exact ⟨⟨by simp, fun d hd ↦ hfigures.2 d (List.mem_of_mem_take hd)⟩, .inr hzero⟩

theorem pointed_isWellFormed (negative : Bool) (hfigures : IsFigures figures)
    (hzero : figures.head? ≠ some '0') : (pointed negative figures point).IsWellFormed := by
  have hone : Json.IsWholePart ['0'] := ⟨⟨by simp, by simp⟩, .inl rfl⟩
  rw [pointed]
  split
  · split
    · refine ⟨hone, fun c hc ↦ ?_⟩
      rcases List.mem_append.1 hc with hc | hc
      · exact isDigit_of_mem_replicate hc
      · exact hfigures.2 c hc
    · split
      · exact ⟨isWholePart_append hfigures hzero fun _ ↦ isDigit_of_mem_replicate, hone.1.2⟩
      · exact ⟨isWholePart_take hfigures hzero (by omega),
          fun c hc ↦ hfigures.2 c (List.mem_of_mem_drop hc)⟩
  · exact ⟨isWholePart_take hfigures hzero one_pos,
      fun c hc ↦ hfigures.2 c (List.mem_of_mem_drop hc)⟩

def decimal (l : Numeral) : ℚ := l.digits * 10 ^ l.place

theorem decimal_of_digits {l : Numeral} {place : ℤ} (hdigits : l.digits = n)
    (hplace : l.place = place) : decimal l = n * 10 ^ place := by
  rw [decimal, hdigits, hplace]

theorem ofDigitChars_zeros_append (k : ℕ) (s : List Char) :
    Nat.ofDigitChars 10 (List.replicate k '0' ++ s) 0 = Nat.ofDigitChars 10 s 0 := by
  rw [Nat.ofDigitChars_append, Nat.ofDigitChars_replicate_zero, Nat.mul_zero]

theorem decimal_pointed (negative : Bool) (n : ℕ) (point : ℤ) :
    decimal (pointed negative (digits n) point) = n * 10 ^ (point - (digits n).length) := by
  have hread : Nat.ofDigitChars 10 (digits n) 0 = n := Nat.ofDigitChars_ten_toDigits
  have hlength : 0 < (digits n).length := Nat.length_toDigits_pos
  rw [pointed]
  split
  · split
    · refine decimal_of_digits ?_ ?_
      · have hzeros : ['0'] ++ (List.replicate (-point).toNat '0' ++ digits n) =
            List.replicate ((-point).toNat + 1) '0' ++ digits n := by
          rw [List.replicate_succ]
          rfl
        rw [Numeral.digits, hzeros, ofDigitChars_zeros_append, hread]
      · simp only [Numeral.place, Option.getD_none, List.length_append, List.length_replicate]
        omega
    · split
      · obtain ⟨k, hk⟩ : ∃ k : ℕ, point - (digits n).length = k :=
          ⟨(point - (digits n).length).toNat, by omega⟩
        have hdigits : Nat.ofDigitChars 10 (digits n ++ List.replicate k '0' ++ ['0']) 0 =
            10 * (10 ^ k * n) := by
          rw [Nat.ofDigitChars_append, Nat.ofDigitChars_append, hread,
            Nat.ofDigitChars_replicate_zero]
          rfl
        simp only [decimal, Numeral.digits, Numeral.place, hk, Int.toNat_natCast, hdigits,
          Option.getD_none, List.length_singleton]
        rw [zero_sub, zpow_neg, zpow_natCast, zpow_natCast]
        push_cast
        field_simp
      · refine decimal_of_digits ?_ ?_
        · rw [Numeral.digits, List.take_append_drop, hread]
        · simp only [Numeral.place, Option.getD_none, List.length_drop]
          omega
  · refine decimal_of_digits ?_ ?_
    · rw [Numeral.digits, List.take_append_drop, hread]
    · simp only [Numeral.place, Option.getD_some, List.length_drop]
      omega

variable {x : FiniteDouble}

def doubleNumeral (x : FiniteDouble) : Numeral :=
  if x.mantissa = 0 then ⟨x.negative, ['0'], ['0'], none⟩
  else pointed x.negative (digits x.shortest.1) ((digits x.shortest.1).length + x.shortest.2)

theorem doubleNumeral_text (x : FiniteDouble) : (doubleNumeral x).text = finiteText x := by
  rw [doubleNumeral, finiteText]
  by_cases hm : x.mantissa = 0
  · rw [if_pos hm, if_pos (beq_of_eq hm)]
    rfl
  · rw [if_neg hm, if_neg (by simpa using hm)]
    exact pointed_text _ Nat.toDigits_ne_nil

theorem doubleNumeral_isWellFormed (hx : x.IsCanonical) : (doubleNumeral x).IsWellFormed := by
  rw [doubleNumeral]
  split
  · exact ⟨⟨⟨by simp, by simp⟩, .inl rfl⟩, by simp⟩
  · exact pointed_isWellFormed _ (Numeral.isFigures_toDigits _)
      (head?_digits (FiniteDouble.shortest_pos hx (Nat.pos_of_ne_zero ‹_›)))

theorem pointed_value (negative : Bool) (hne : figures ≠ []) :
    (pointed negative figures point).value =
      .double (.ofDecimal negative (pointed negative figures point).digits
        (pointed negative figures point).place) := by
  have hdouble : ¬ ((pointed negative figures point).fraction = [] ∧
      (pointed negative figures point).power = none) := by
    rw [pointed]
    split
    · split
      · simp [hne]
      · split
        · simp
        · rw [List.drop_eq_nil_iff]
          omega
    · simp
  rw [Numeral.value, if_neg hdouble, pointed_negative]

theorem doubleNumeral_value (hx : x.IsCanonical) :
    (doubleNumeral x).value = .double (.finite x) := by
  rw [doubleNumeral]
  split
  · rename_i hm
    have hleast : x.exponent = FiniteDouble.leastExponent := by
      refine hx.full.resolve_left ?_
      rw [hm]
      decide
    obtain ⟨negative, mantissa, exponent⟩ := x
    dsimp only at hm hleast
    subst hm hleast
    cases negative <;> decide
  · rename_i hm
    have hm := Nat.pos_of_ne_zero hm
    have hnearest := FiniteDouble.shortest_isNearest hx hm
    have hdecimal := decimal_pointed x.negative x.shortest.1
      ((digits x.shortest.1).length + x.shortest.2)
    rw [add_sub_cancel_left] at hdecimal
    rw [← hdecimal] at hnearest
    have hread := Double.ofDecimal_of_isNearest hx hm hnearest
    exact (pointed_value _ Nat.toDigits_ne_nil).trans (congrArg double hread)

theorem exists_numeral {n : Number} (h : n.IsWritable) :
    ∃ l : Numeral, l.IsWellFormed ∧ l.text = n.text ∧ l.value = n := by
  cases n with
  | whole n => exact ⟨_, wholeNumeral_isWellFormed n, wholeNumeral_text n, wholeNumeral_value n⟩
  | double x =>
    cases x with
    | finite x => exact ⟨_, doubleNumeral_isWellFormed h, doubleNumeral_text x, doubleNumeral_value h⟩
    | infinite negative => exact absurd h id
    | notANumber => exact absurd h id

end Number

end SwiftInventory
