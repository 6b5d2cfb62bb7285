import Mathlib.Data.List.TakeDrop
import Mathlib.Data.List.TakeWhile
import SwiftInventory.Json.Reader
import SwiftInventory.Proofs.Json.Grammar
import SwiftInventory.Proofs.Separation

namespace SwiftInventory.Json

variable {s rest figures whole fraction : List Char}

theorem figures?_append (h : IsFigures s) (hrest : ∀ c ∈ rest.head?, c.isDigit = false) :
    figures? (s ++ rest) = some (s, rest) := by
  rw [figures?, Text.span_append h.2 hrest]
  obtain ⟨c, s, rfl⟩ := List.exists_cons_of_ne_nil h.1
  rfl

theorem wholePart?_append (h : IsWholePart s) (hrest : ∀ c ∈ rest.head?, c.isDigit = false) :
    wholePart? (s ++ rest) = some (s, rest) := by
  have hzero : (s.length == 1 || s.head? != some '0') = true := by simpa using h.2
  rw [wholePart?, figures?_append h.1 hrest, Option.filter_some, if_pos hzero]

/-- A number as it is written: a sign, figures before and after the point, and a power of ten. -/
structure Numeral where
  negative : Bool
  whole : List Char
  fraction : List Char := []
  power : Option Int := none

namespace Numeral

variable (l : Numeral)

structure IsWellFormed : Prop where
  whole : IsWholePart l.whole
  fraction : ∀ c ∈ l.fraction, c.isDigit = true

def fractionText : List Char := if l.fraction = [] then [] else '.' :: l.fraction

def powerText : List Char := l.power.elim [] Number.exponentText

def unsignedText : List Char := l.whole ++ (l.fractionText ++ l.powerText)

def text : List Char := Number.sign l.negative ++ l.unsignedText

def digits : Nat := Nat.ofDigitChars 10 (l.whole ++ l.fraction) 0

def place : Int := l.power.getD 0 - l.fraction.length

def value : Number :=
  if l.fraction = [] ∧ l.power = none then
    .whole (if l.negative then -l.digits else l.digits)
  else .double (.ofDecimal l.negative l.digits l.place)

variable {l}

theorem isFigures_toDigits (n : Nat) : IsFigures (Number.digits n) :=
  ⟨Nat.toDigits_ne_nil, fun _ hc ↦ Nat.isDigit_of_mem_toDigits (by decide) (by decide) hc⟩

def powerFigures (power : Int) : List Char :=
  List.replicate (2 - (Number.digits power.natAbs).length) '0' ++ Number.digits power.natAbs

theorem isFigures_powerFigures (power : Int) : IsFigures (powerFigures power) := by
  obtain ⟨hne, hfigures⟩ := isFigures_toDigits power.natAbs
  refine ⟨by simp [powerFigures, hne], fun c hc ↦ ?_⟩
  rcases List.mem_append.1 hc with hc | hc
  · rw [List.eq_of_mem_replicate hc]
    decide
  · exact hfigures c hc

theorem ofDigitChars_powerFigures (power : Int) :
    Nat.ofDigitChars 10 (powerFigures power) 0 = power.natAbs := by
  rw [powerFigures, Nat.ofDigitChars_append, Nat.ofDigitChars_replicate_zero, Nat.mul_zero]
  exact Nat.ofDigitChars_ten_toDigits

theorem figures?_powerFigures (power : Int) :
    figures? (powerFigures power) = some (powerFigures power, []) := by
  have h : figures? (powerFigures power ++ []) = some (powerFigures power, []) :=
    figures?_append (isFigures_powerFigures power) (by simp)
  rwa [List.append_nil] at h

theorem exponentText_eq (power : Int) :
    Number.exponentText power = 'e' :: (if power < 0 then '-' else '+') :: powerFigures power := rfl

theorem exponentPart?_powerFigures (power : Int) :
    exponentPart? ((if power < 0 then '-' else '+') :: powerFigures power) = some power := by
  by_cases h : power < 0
  · rw [if_pos h]
    simp only [exponentPart?, figures?_powerFigures, ofDigitChars_powerFigures, if_true]
    congr 1
    omega
  · rw [if_neg h]
    simp only [exponentPart?, figures?_powerFigures, ofDigitChars_powerFigures]
    congr 1
    simp only [Bool.false_eq_true, if_false]
    omega

theorem not_isDigit_powerText : ∀ c ∈ l.powerText.head?, c.isDigit = false := by
  rw [powerText]
  cases l.power with
  | none => simp
  | some power =>
    rw [Option.elim_some, exponentText_eq]
    simp

theorem not_isDigit_fractionText :
    ∀ c ∈ (l.fractionText ++ l.powerText).head?, c.isDigit = false := by
  rw [fractionText]
  split
  · exact not_isDigit_powerText
  · simp

theorem isFigures_fraction (h : l.IsWellFormed) (hne : l.fraction ≠ []) : IsFigures l.fraction :=
  ⟨hne, h.fraction⟩

theorem unsigned?_text (h : l.IsWellFormed) :
    unsigned? l.negative l.unsignedText = some l.value := by
  rw [unsigned?, unsignedText, wholePart?_append h.whole not_isDigit_fractionText]
  by_cases hf : l.fraction = []
  · have hftext : l.fractionText = [] := if_pos hf
    cases hp : l.power with
    | none =>
      have hptext : l.powerText = [] := by rw [powerText, hp]; rfl
      simp [hftext, hptext, value, digits, hf, hp]
    | some power =>
      have hptext : l.powerText = 'e' :: (if power < 0 then '-' else '+') :: powerFigures power := by
        rw [powerText, hp]
        rfl
      simp [hftext, hptext, value, digits, place, hf, hp, isExponentMark, exponentPart?_powerFigures]
  · have hftext : l.fractionText = '.' :: l.fraction := if_neg hf
    have hfraction := figures?_append (isFigures_fraction h hf) (not_isDigit_powerText (l := l))
    cases hp : l.power with
    | none =>
      have hptext : l.powerText = [] := by rw [powerText, hp]; rfl
      rw [hptext, List.append_nil] at hfraction
      simp [hftext, hptext, value, digits, place, hf, hp, hfraction]
    | some power =>
      have hptext : l.powerText = 'e' :: (if power < 0 then '-' else '+') :: powerFigures power := by
        rw [powerText, hp]
        rfl
      rw [hptext] at hfraction
      simp [hftext, hptext, value, digits, place, hf, hp, hfraction, isExponentMark,
        exponentPart?_powerFigures]

theorem exists_head (h : l.IsWellFormed) :
    ∃ c rest, l.unsignedText = c :: rest ∧ c.isDigit = true := by
  obtain ⟨⟨hne, hfigures⟩, -⟩ := h.whole
  obtain ⟨c, whole, hc⟩ := List.exists_cons_of_ne_nil hne
  exact ⟨c, _, by rw [unsignedText, hc]; rfl, hfigures c (by simp [hc])⟩

theorem number?_text (h : l.IsWellFormed) : number? l.text = some l.value := by
  have hread := unsigned?_text h
  rw [text, Number.sign]
  cases hneg : l.negative with
  | true =>
    rw [hneg] at hread
    exact hread
  | false =>
    obtain ⟨c, rest, htext, hc⟩ := exists_head h
    have hminus : c ≠ '-' := fun hminus ↦ by simp [hminus] at hc
    rw [hneg, htext] at hread
    rw [htext]
    simpa [number?, hminus] using hread

theorem isFraction_fractionText (h : l.IsWellFormed) : IsFraction l.fractionText := by
  rw [fractionText]
  split
  · exact .none
  · exact .some ⟨‹_›, h.fraction⟩

theorem isPower_powerText : IsPower l.powerText := by
  rw [powerText]
  cases l.power with
  | none => exact .none
  | some power =>
    rw [Option.elim_some, exponentText_eq]
    have hsign : [if power < 0 then '-' else '+'] = [] ∨
        [if power < 0 then '-' else '+'] = ['+'] ∨ [if power < 0 then '-' else '+'] = ['-'] := by
      split <;> simp
    exact .some (.inl rfl) hsign (isFigures_powerFigures power)

theorem isNumber_text (h : l.IsWellFormed) : IsNumber l.text := by
  have hsign : Number.sign l.negative = [] ∨ Number.sign l.negative = ['-'] := by
    cases l.negative <;> simp [Number.sign]
  have htext := IsNumber.mk hsign h.whole (isFraction_fractionText h) (isPower_powerText (l := l))
  simpa [text, unsignedText, List.append_assoc] using htext

theorem isNumberChar_of_isDigit {c : Char} (h : c.isDigit = true) : isNumberChar c = true := by
  rw [isNumberChar, h, Bool.true_or]

theorem isNumberChar_of_mem_fractionText (h : l.IsWellFormed) :
    ∀ c ∈ l.fractionText, isNumberChar c = true := by
  rw [fractionText]
  intro c hc
  split at hc
  · cases hc
  · rcases List.mem_cons.1 hc with rfl | hc
    · decide
    · exact isNumberChar_of_isDigit (h.fraction c hc)

theorem isNumberChar_of_mem_powerText : ∀ c ∈ l.powerText, isNumberChar c = true := by
  rw [powerText]
  intro c hc
  cases hp : l.power with
  | none => simp [hp] at hc
  | some power =>
    rw [hp, Option.elim_some, exponentText_eq] at hc
    rcases List.mem_cons.1 hc with rfl | hc
    · decide
    · rcases List.mem_cons.1 hc with rfl | hc
      · split <;> decide
      · exact isNumberChar_of_isDigit ((isFigures_powerFigures power).2 c hc)

theorem isNumberChar_of_mem_text (h : l.IsWellFormed) : ∀ c ∈ l.text, isNumberChar c = true := by
  intro c hc
  rw [text, unsignedText] at hc
  rcases List.mem_append.1 hc with hc | hc
  · cases hneg : l.negative <;> simp_all [Number.sign, isNumberChar]
  · rcases List.mem_append.1 hc with hc | hc
    · exact isNumberChar_of_isDigit (h.whole.1.2 c hc)
    · rcases List.mem_append.1 hc with hc | hc
      · exact isNumberChar_of_mem_fractionText h c hc
      · exact isNumberChar_of_mem_powerText c hc

end Numeral

end SwiftInventory.Json
