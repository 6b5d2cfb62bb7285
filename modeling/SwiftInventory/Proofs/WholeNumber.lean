import Mathlib.Data.Nat.Digits.Defs
import SwiftInventory.Proofs.Pattern
import SwiftInventory.Proofs.Trimming
import SwiftInventory.Text.Integer

namespace SwiftInventory.Text.Integer

variable {c : Char} {d : Nat} {s t : List Char} {digits : List Nat}

/-- Digits, each but the last perhaps with a low line behind it, and what each of them is worth. -/
inductive IsDigits : List Char → List Nat → Prop
  | last {c : Char} {d : Nat} (h : digitValue? c = some d) : IsDigits [c] [d]
  | next {c : Char} {d : Nat} {s : List Char} {digits : List Nat} (h : digitValue? c = some d)
      (hs : IsDigits s digits) : IsDigits (c :: s) (d :: digits)
  | lowLine {c : Char} {d : Nat} {s : List Char} {digits : List Nat} (h : digitValue? c = some d)
      (hs : IsDigits s digits) : IsDigits (c :: '_' :: s) (d :: digits)

inductive Sign
  | none
  | plus
  | minus

def Sign.text : Sign → List Char
  | none => []
  | plus => ['+']
  | minus => ['-']

def Sign.apply (n : Nat) : Sign → Int
  | minus => -n
  | _ => n

/-- A whole number and its text. The digits count by their places, the last one for ones. -/
inductive Denotes : List Char → Int → Prop
  | mk (before after : Run isPadding) (sign : Sign) {s : List Char} {digits : List Nat}
      (hdigits : IsDigits s digits) (hlength : digits.length ≤ maxDigits) :
      Denotes (before.chars ++ ((sign.text ++ s) ++ after.chars))
        (sign.apply (Nat.ofDigits 10 digits.reverse))

/-- What may come next: digits, and behind a digit also a low line and digits, or the end. -/
def Continues (afterDigit : Bool) (s : List Char) (digits : List Nat) : Prop :=
  IsDigits s digits ∨
    afterDigit = true ∧ (s = [] ∧ digits = [] ∨ ∃ t, s = '_' :: t ∧ IsDigits t digits)

theorem not_isDigits_nil : ¬ IsDigits [] digits := by
  intro h
  cases h

theorem isDigits_cons :
    IsDigits (c :: s) digits ↔
      ∃ d more, digitValue? c = some d ∧ Continues true s more ∧ digits = d :: more := by
  constructor
  · intro h
    cases h with
    | last h => exact ⟨_, _, h, .inr ⟨rfl, .inl ⟨rfl, rfl⟩⟩, rfl⟩
    | next h hs => exact ⟨_, _, h, .inl hs, rfl⟩
    | lowLine h hs => exact ⟨_, _, h, .inr ⟨rfl, .inr ⟨_, rfl, hs⟩⟩, rfl⟩
  · rintro ⟨d, more, h, hs | ⟨-, ⟨rfl, rfl⟩ | ⟨t, rfl, ht⟩⟩, rfl⟩
    · exact .next h hs
    · exact .last h
    · exact .lowLine h ht

theorem continues_nil {afterDigit : Bool} :
    Continues afterDigit [] digits ↔ afterDigit = true ∧ digits = [] := by
  simp [Continues, not_isDigits_nil]

theorem continues_cons {afterDigit : Bool} :
    Continues afterDigit (c :: s) digits ↔
      IsDigits (c :: s) digits ∨ (c = '_' ∧ afterDigit = true) ∧ Continues false s digits := by
  apply or_congr_right
  constructor
  · rintro ⟨hafter, ⟨h, -⟩ | ⟨t, h, ht⟩⟩
    · cases h
    · obtain ⟨rfl, rfl⟩ := List.cons.inj h
      exact ⟨⟨rfl, hafter⟩, .inl ht⟩
  · rintro ⟨⟨rfl, hafter⟩, ht | ⟨h, -⟩⟩
    · exact ⟨hafter, .inr ⟨s, rfl, ht⟩⟩
    · cases h

theorem digitsFrom_eq_some (done : List Nat) (afterDigit : Bool) :
    digitsFrom done afterDigit s = some digits ↔
      ∃ more, Continues afterDigit s more ∧ digits = done.reverse ++ more := by
  induction s generalizing done afterDigit with
  | nil => cases afterDigit <;> simp [digitsFrom, continues_nil, eq_comm]
  | cons c s ih =>
    rw [digitsFrom]
    simp only [continues_cons, isDigits_cons]
    cases hc : digitValue? c with
    | some d =>
      -- A digit is no low line.
      have hline : c ≠ '_' := by
        rintro rfl
        cases hc
      simp [ih, hline]
    | none =>
      by_cases hline : c = '_' ∧ afterDigit = true
      · simp [ih, hline]
      · simp [hline]

theorem foldl_eq_ofDigits (digits : List Nat) :
    digits.foldl (fun n d ↦ 10 * n + d) 0 = Nat.ofDigits 10 digits.reverse := by
  rw [Nat.ofDigits_eq_foldr, List.foldr_reverse]
  simp [Nat.add_comm]

theorem digitsFrom_start : digitsFrom [] false s = some digits ↔ IsDigits s digits := by
  simp [digitsFrom_eq_some, Continues]

theorem magnitude?_eq_some {n : Nat} :
    magnitude? s = some n ↔
      ∃ digits, IsDigits s digits ∧ digits.length ≤ maxDigits ∧
        n = Nat.ofDigits 10 digits.reverse := by
  rw [magnitude?]
  constructor
  · intro h
    split at h
    · rename_i digits hdigits
      obtain ⟨hlength, hn⟩ := Option.ite_none_right_eq_some.1 h
      rw [foldl_eq_ofDigits] at hn
      exact ⟨digits, digitsFrom_start.1 hdigits, hlength, (Option.some.inj hn).symm⟩
    · cases h
  · rintro ⟨digits, hs, hlength, rfl⟩
    rw [digitsFrom_start.2 hs]
    dsimp only
    rw [if_pos hlength, foldl_eq_ofDigits]

theorem map_magnitude?_eq_some {f : Nat → Int} {n : Int} :
    (magnitude? s).map f = some n ↔
      ∃ digits, IsDigits s digits ∧ digits.length ≤ maxDigits ∧
        n = f (Nat.ofDigits 10 digits.reverse) := by
  rw [Option.map_eq_some_iff]
  constructor
  · rintro ⟨m, hm, rfl⟩
    obtain ⟨digits, hs, hlength, rfl⟩ := magnitude?_eq_some.1 hm
    exact ⟨digits, hs, hlength, rfl⟩
  · rintro ⟨digits, hs, hlength, rfl⟩
    exact ⟨_, magnitude?_eq_some.2 ⟨digits, hs, hlength, rfl⟩, rfl⟩

theorem not_isPadding_of_digit (h : digitValue? c = some d) : isPadding c = false := by
  have htable : ∀ n ∈ blankCodes, digitValue? (Char.ofNat n) = none := by decide +kernel
  apply Bool.eq_false_iff.2
  intro hpadding
  have hblank : isBlank c = true := ((Bool.and_eq_true _ _).mp hpadding).1
  have hnone := htable _ (toNat_mem_blankCodes hblank)
  rw [Char.ofNat_toNat, h] at hnone
  cases hnone

theorem IsDigits.ends (h : IsDigits s digits) :
    s ≠ [] ∧ (∀ c ∈ s.head?, ∃ d, digitValue? c = some d) ∧
      ∀ c ∈ s.getLast?, ∃ d, digitValue? c = some d := by
  induction h with
  | last h => simp [h]
  | next h hs ih =>
    obtain ⟨hne, -, hlast⟩ := ih
    refine ⟨List.cons_ne_nil _ _, by simp [h], ?_⟩
    rwa [List.getLast?_cons_of_ne_nil hne]
  | lowLine h hs ih =>
    obtain ⟨hne, -, hlast⟩ := ih
    refine ⟨List.cons_ne_nil _ _, by simp [h], ?_⟩
    rwa [List.getLast?_cons_of_ne_nil (List.cons_ne_nil _ _), List.getLast?_cons_of_ne_nil hne]

theorem strip_of_digits (before after : Run isPadding) (sign : Sign) (h : IsDigits s digits) :
    strip (before.chars ++ ((sign.text ++ s) ++ after.chars)) = sign.text ++ s := by
  obtain ⟨hne, hhead, hlast⟩ := h.ends
  have hdigit {c : Char} (hc : ∃ d, digitValue? c = some d) : isPadding c = false :=
    hc.elim fun _ ↦ not_isPadding_of_digit
  apply dropWhile_both_ends before.all after.all
  · intro c hc
    cases sign with
    | none => exact hdigit (hhead c hc)
    | plus =>
      obtain rfl := Option.mem_some.1 hc
      decide
    | minus =>
      obtain rfl := Option.mem_some.1 hc
      decide
  · rw [List.getLast?_append_of_ne_nil _ hne]
    exact fun c hc ↦ hdigit (hlast c hc)
  · exact List.append_ne_nil_of_right_ne_nil _ hne

theorem exists_digits_of_read? {n : Int} (h : read? s = some n) :
    ∃ sign : Sign, ∃ t digits, strip s = sign.text ++ t ∧ IsDigits t digits ∧
      digits.length ≤ maxDigits ∧ n = sign.apply (Nat.ofDigits 10 digits.reverse) := by
  rw [read?] at h
  split at h
  · rename_i t ht
    obtain ⟨digits, hdigits, hlength, hn⟩ := map_magnitude?_eq_some.1 h
    exact ⟨.minus, t, digits, ht, hdigits, hlength, hn⟩
  · rename_i t ht
    obtain ⟨digits, hdigits, hlength, hn⟩ := map_magnitude?_eq_some.1 h
    exact ⟨.plus, t, digits, ht, hdigits, hlength, hn⟩
  · obtain ⟨digits, hdigits, hlength, hn⟩ := map_magnitude?_eq_some.1 h
    exact ⟨.none, _, digits, rfl, hdigits, hlength, hn⟩

theorem read?_of_strip {sign : Sign} (hs : strip s = sign.text ++ t) (ht : IsDigits t digits)
    (hlength : digits.length ≤ maxDigits) :
    read? s = some (sign.apply (Nat.ofDigits 10 digits.reverse)) := by
  rw [read?, hs]
  cases sign with
  | minus => exact map_magnitude?_eq_some.2 ⟨digits, ht, hlength, rfl⟩
  | plus => exact map_magnitude?_eq_some.2 ⟨digits, ht, hlength, rfl⟩
  | none =>
    -- A digit is no sign.
    obtain ⟨-, hhead, -⟩ := ht.ends
    rw [Sign.text, List.nil_append]
    split
    · obtain ⟨d, hd⟩ := hhead _ rfl
      cases hd
    · obtain ⟨d, hd⟩ := hhead _ rfl
      cases hd
    · exact map_magnitude?_eq_some.2 ⟨digits, ht, hlength, rfl⟩

/-- A text is read as a number exactly when it is one. -/
theorem read?_eq_some {n : Int} : read? s = some n ↔ Denotes s n := by
  constructor
  · intro h
    obtain ⟨before, after, hbefore, hafter, hs⟩ := exists_dropWhile_both_ends isPadding s
    obtain ⟨sign, t, digits, ht, hdigits, hlength, rfl⟩ := exists_digits_of_read? h
    rw [← strip, ht] at hs
    rw [hs]
    exact .mk ⟨before, hbefore⟩ ⟨after, hafter⟩ sign hdigits hlength
  · intro h
    obtain ⟨before, after, sign, hdigits, hlength⟩ := h
    exact read?_of_strip (strip_of_digits before after sign hdigits) hdigits hlength

theorem Denotes.unique {n n' : Int} (h : Denotes s n) (h' : Denotes s n') : n = n' := by
  rw [← read?_eq_some] at h h'
  exact Option.some.inj (h.symm.trans h')

example : read? " +1_٢\n".toList = some 12 := by decide +kernel

example : read? "1__2".toList = none := by decide +kernel

end SwiftInventory.Text.Integer
