import Mathlib.Data.List.Basic
import SwiftInventory.Text.Utf8

namespace SwiftInventory.Text.Utf8

def IsTail (octet : UInt8) : Prop := 0x80 ≤ octet.toNat ∧ octet.toNat ≤ 0xBF

/-- The forms of code points. An overlong form would have a first octet below 0xC2, or one of 0xE0
or 0xF0 and too small a second one, a surrogate 0xED and too great a one. -/
inductive Form : List UInt8 → Nat → Prop
  | one {a : UInt8} : a.toNat < 0x80 → Form [a] a.toNat
  | two {a b : UInt8} : 0xC2 ≤ a.toNat → a.toNat < 0xE0 → IsTail b →
      Form [a, b] ((a.toNat - 0xC0) * 64 + (b.toNat - 0x80))
  | three {a b c : UInt8} : 0xE0 ≤ a.toNat → a.toNat < 0xF0 → IsTail b → IsTail c →
      (a.toNat = 0xE0 → 0xA0 ≤ b.toNat) → (a.toNat = 0xED → b.toNat ≤ 0x9F) →
      Form [a, b, c] (((a.toNat - 0xE0) * 64 + (b.toNat - 0x80)) * 64 + (c.toNat - 0x80))
  | four {a b c d : UInt8} : 0xF0 ≤ a.toNat → a.toNat < 0xF5 → IsTail b → IsTail c → IsTail d →
      (a.toNat = 0xF0 → 0x90 ≤ b.toNat) → (a.toNat = 0xF4 → b.toNat ≤ 0x8F) →
      Form [a, b, c, d] ((((a.toNat - 0xF0) * 64 + (b.toNat - 0x80)) * 64 +
        (c.toNat - 0x80)) * 64 + (d.toNat - 0x80))

inductive Begins : Nat → Pending → Prop
  | two {n : Nat} : 0xC2 ≤ n → n < 0xE0 → Begins n { value := n - 0xC0, size := 1, owed := 1 }
  | three {n : Nat} : 0xE0 ≤ n → n < 0xF0 → Begins n {
      value := n - 0xE0, size := 1, owed := 2
      low := if n == 0xE0 then 0xA0 else 0x80
      high := if n == 0xED then 0x9F else 0xBF }
  | four {n : Nat} : 0xF0 ≤ n → n < 0xF5 → Begins n {
      value := n - 0xF0, size := 1, owed := 3
      low := if n == 0xF0 then 0x90 else 0x80
      high := if n == 0xF4 then 0x8F else 0xBF }

/-- The octets that make a character of a pending sequence. -/
inductive Pending.Completes : Pending → List UInt8 → Char → Prop
  | last {p : Pending} {octet : UInt8} {c : Char} : p.step octet.toNat = .char c →
      Completes p [octet] c
  | next {p p' : Pending} {octet : UInt8} {rest : List UInt8} {c : Char} :
      p.step octet.toNat = .more p' → Completes p' rest c → Completes p (octet :: rest) c

inductive Spells : List UInt8 → Char → Prop
  | one {octet : UInt8} {c : Char} : start octet.toNat = .char c → Spells [octet] c
  | more {octet : UInt8} {p : Pending} {rest : List UInt8} {c : Char} :
      start octet.toNat = .more p → p.Completes rest c → Spells (octet :: rest) c

variable {octets rest : List UInt8} {octet : UInt8} {c : Char} {n : Nat} {p p' : Pending}

theorem Form.of_eq {m : Nat} (h : Form octets m) (he : m = n) : Form octets n := he ▸ h

theorem toNat_ofNat_of_form (h : Form octets n) : (Char.ofNat n).toNat = n := by
  have hvalid : n.isValidChar := by
    cases h <;> simp only [IsTail, Nat.isValidChar] at * <;> omega
  rw [Char.ofNat, dif_pos hvalid]
  rfl

theorem ofNat_eq (h : n = octet.toNat) : UInt8.ofNat n = octet := by rw [h, UInt8.ofNat_toNat]

theorem exists_octet (h : n < 256) : ∃ octet, UInt8.ofNat n = octet ∧ octet.toNat = n :=
  ⟨_, rfl, by rw [UInt8.toNat_ofNat', Nat.mod_eq_of_lt h]⟩

theorem utf8EncodeChar_of_form (h : Form octets n) :
    String.utf8EncodeChar (Char.ofNat n) = octets := by
  have hn : (Char.ofNat n).val.toNat = n := toNat_ofNat_of_form h
  simp only [String.utf8EncodeChar, hn]
  cases h with
  | one ha => rw [if_pos (by omega), UInt8.ofNat_toNat]
  | two ha ha' hb =>
    simp only [IsTail] at hb
    rw [if_neg (by omega), if_pos (by omega)]
    simp only [List.cons.injEq, and_true]
    exact ⟨ofNat_eq (by omega), ofNat_eq (by omega)⟩
  | three ha ha' hb hc hlow hhigh =>
    simp only [IsTail] at hb hc
    rw [if_neg (by omega), if_neg (by omega), if_pos (by omega)]
    simp only [List.cons.injEq, and_true]
    exact ⟨ofNat_eq (by omega), ofNat_eq (by omega), ofNat_eq (by omega)⟩
  | four ha ha' hb hc hd hlow hhigh =>
    simp only [IsTail] at hb hc hd
    rw [if_neg (by omega), if_neg (by omega), if_neg (by omega)]
    simp only [List.cons.injEq, and_true]
    exact ⟨ofNat_eq (by omega), ofNat_eq (by omega), ofNat_eq (by omega), ofNat_eq (by omega)⟩

theorem form_utf8EncodeChar (c : Char) : Form (String.utf8EncodeChar c) c.toNat := by
  have hc : c.toNat < 0xD800 ∨ 0xDFFF < c.toNat ∧ c.toNat < 0x110000 := c.valid
  have hv : c.val.toNat = c.toNat := rfl
  simp only [String.utf8EncodeChar, hv]
  split
  · obtain ⟨a, ha, ha'⟩ := exists_octet (n := c.toNat) (by omega)
    rw [ha, ← ha']
    exact .one (by omega)
  split
  · obtain ⟨a, ha, ha'⟩ := exists_octet (n := c.toNat / 64 % 0x20 + 0xC0) (by omega)
    obtain ⟨b, hb, hb'⟩ := exists_octet (n := c.toNat % 0x40 + 0x80) (by omega)
    rw [ha, hb]
    have h : Form [a, b] _ := .two (by omega) (by omega) ⟨by omega, by omega⟩
    exact h.of_eq (by omega)
  split
  · obtain ⟨a, ha, ha'⟩ := exists_octet (n := c.toNat / 4096 % 0x10 + 0xE0) (by omega)
    obtain ⟨b, hb, hb'⟩ := exists_octet (n := c.toNat / 64 % 0x40 + 0x80) (by omega)
    obtain ⟨d, hd, hd'⟩ := exists_octet (n := c.toNat % 0x40 + 0x80) (by omega)
    rw [ha, hb, hd]
    have h : Form [a, b, d] _ := .three (by omega) (by omega) ⟨by omega, by omega⟩
      ⟨by omega, by omega⟩ (by omega) (by omega)
    exact h.of_eq (by omega)
  · obtain ⟨a, ha, ha'⟩ := exists_octet (n := c.toNat / 262144 % 0x08 + 0xF0) (by omega)
    obtain ⟨b, hb, hb'⟩ := exists_octet (n := c.toNat / 4096 % 0x40 + 0x80) (by omega)
    obtain ⟨d, hd, hd'⟩ := exists_octet (n := c.toNat / 64 % 0x40 + 0x80) (by omega)
    obtain ⟨e, he, he'⟩ := exists_octet (n := c.toNat % 0x40 + 0x80) (by omega)
    rw [ha, hb, hd, he]
    have h : Form [a, b, d, e] _ := .four (by omega) (by omega) ⟨by omega, by omega⟩
      ⟨by omega, by omega⟩ ⟨by omega, by omega⟩ (by omega) (by omega)
    exact h.of_eq (by omega)

theorem Form.toNat_of_mem (h : Form octets n) (hmem : octet ∈ octets) (hlt : octet.toNat < 0x80) :
    octet.toNat = n := by
  cases h with
  | one ha => rw [List.mem_singleton.1 hmem]
  | two ha ha' hb =>
    simp only [IsTail, List.mem_cons, List.not_mem_nil, or_false] at hb hmem
    rcases hmem with rfl | rfl <;> omega
  | three ha ha' hb hc hlow hhigh =>
    simp only [IsTail, List.mem_cons, List.not_mem_nil, or_false] at hb hc hmem
    rcases hmem with rfl | rfl | rfl <;> omega
  | four ha ha' hb hc hd hlow hhigh =>
    simp only [IsTail, List.mem_cons, List.not_mem_nil, or_false] at hb hc hd hmem
    rcases hmem with rfl | rfl | rfl | rfl <;> omega

theorem start_eq_char : start n = .char c ↔ n < 0x80 ∧ Char.ofNat n = c := by
  rw [start]
  repeat' split
  all_goals simp [*]

theorem start_eq_more : start n = .more p ↔ Begins n p := by
  constructor
  · intro h
    rw [start] at h
    split at h
    · cases h
    split at h
    · cases h
    split at h
    · obtain rfl := Step.more.inj h
      exact .two (by omega) (by omega)
    split at h
    · obtain rfl := Step.more.inj h
      exact .three (by omega) (by omega)
    split at h
    · obtain rfl := Step.more.inj h
      exact .four (by omega) (by omega)
    · cases h
  · intro h
    rw [start]
    cases h with
    | two h h' => rw [if_neg (by omega), if_neg (by omega), if_pos h']
    | three h h' => rw [if_neg (by omega), if_neg (by omega), if_neg (by omega), if_pos h']
    | four h h' =>
      rw [if_neg (by omega), if_neg (by omega), if_neg (by omega), if_neg (by omega), if_pos h']

theorem step_eq_char : p.step n = .char c ↔ (p.low ≤ n ∧ n ≤ p.high) ∧ p.owed ≤ 1 ∧
    Char.ofNat (p.value * 64 + (n - 0x80)) = c := by
  simp only [Pending.step, Bool.or_eq_true, decide_eq_true_eq]
  split
  · exact iff_of_false nofun (by omega)
  split
  · rw [Step.char.injEq, and_iff_right (by omega), and_iff_right (by omega)]
  · exact iff_of_false nofun (by omega)

theorem step_eq_more : p.step n = .more p' ↔ (p.low ≤ n ∧ n ≤ p.high) ∧ 1 < p.owed ∧
    { value := p.value * 64 + (n - 0x80), size := p.size + 1, owed := p.owed - 1 } = p' := by
  simp only [Pending.step, Bool.or_eq_true, decide_eq_true_eq]
  split
  · exact iff_of_false nofun (by omega)
  split
  · exact iff_of_false nofun (by omega)
  · rw [Step.more.injEq, and_iff_right (by omega), and_iff_right (by omega)]

theorem completes_of_owed_le (h : p.owed ≤ 1) : p.Completes octets c ↔
    ∃ octet, octets = [octet] ∧ (p.low ≤ octet.toNat ∧ octet.toNat ≤ p.high) ∧
      Char.ofNat (p.value * 64 + (octet.toNat - 0x80)) = c := by
  constructor
  · intro hc
    cases hc with
    | last hstep =>
      obtain ⟨hrange, -, hchar⟩ := step_eq_char.1 hstep
      exact ⟨_, rfl, hrange, hchar⟩
    | next hstep hrest =>
      obtain ⟨-, howed, -⟩ := step_eq_more.1 hstep
      omega
  · rintro ⟨octet, rfl, hrange, hchar⟩
    exact .last (step_eq_char.2 ⟨hrange, h, hchar⟩)

theorem completes_of_lt_owed (h : 1 < p.owed) : p.Completes octets c ↔
    ∃ octet rest, octets = octet :: rest ∧ (p.low ≤ octet.toNat ∧ octet.toNat ≤ p.high) ∧
      Pending.Completes {
        value := p.value * 64 + (octet.toNat - 0x80), size := p.size + 1, owed := p.owed - 1 }
        rest c := by
  constructor
  · intro hc
    cases hc with
    | last hstep =>
      obtain ⟨-, howed, -⟩ := step_eq_char.1 hstep
      omega
    | next hstep hrest =>
      obtain ⟨hrange, -, rfl⟩ := step_eq_more.1 hstep
      exact ⟨_, _, rfl, hrange, hrest⟩
  · rintro ⟨octet, rest, rfl, hrange, hrest⟩
    exact .next (step_eq_more.2 ⟨hrange, h, rfl⟩) hrest

/-- Two first octets narrow the range of the second one. -/
theorem second_iff {a b first last low high : Nat} (hlow : 0x80 ≤ low) (hhigh : high ≤ 0xBF) :
    ((if a == first then low else 0x80) ≤ b ∧ b ≤ if a == last then high else 0xBF) ↔
      (0x80 ≤ b ∧ b ≤ 0xBF) ∧ (a = first → low ≤ b) ∧ (a = last → b ≤ high) := by
  simp only [beq_iff_eq]
  split <;> split <;> omega

theorem Form.spells (h : Form octets n) : Spells octets (Char.ofNat n) := by
  cases h with
  | one ha => exact .one (start_eq_char.2 ⟨ha, rfl⟩)
  | two ha ha' hb =>
    refine .more (start_eq_more.2 (.two ha ha')) ?_
    exact (completes_of_owed_le (Nat.le_refl 1)).2 ⟨_, rfl, hb, rfl⟩
  | three ha ha' hb hc hlow hhigh =>
    refine .more (start_eq_more.2 (.three ha ha')) ?_
    refine (completes_of_lt_owed (by simp)).2 ⟨_, _, rfl, ?_, ?_⟩
    · exact (second_iff (by decide) (by decide)).2 ⟨hb, hlow, hhigh⟩
    · exact (completes_of_owed_le (Nat.le_refl 1)).2 ⟨_, rfl, hc, rfl⟩
  | four ha ha' hb hc hd hlow hhigh =>
    refine .more (start_eq_more.2 (.four ha ha')) ?_
    refine (completes_of_lt_owed (by simp)).2 ⟨_, _, rfl, ?_, ?_⟩
    · exact (second_iff (by decide) (by decide)).2 ⟨hb, hlow, hhigh⟩
    · refine (completes_of_lt_owed (by simp)).2 ⟨_, _, rfl, hc, ?_⟩
      exact (completes_of_owed_le (Nat.le_refl 1)).2 ⟨_, rfl, hd, rfl⟩

theorem Spells.form (h : Spells octets c) : ∃ n, Form octets n ∧ Char.ofNat n = c := by
  cases h with
  | one h =>
    obtain ⟨ha, rfl⟩ := start_eq_char.1 h
    exact ⟨_, .one ha, rfl⟩
  | more h hrest =>
    cases start_eq_more.1 h with
    | two ha ha' =>
      obtain ⟨b, rfl, hb, rfl⟩ := (completes_of_owed_le (Nat.le_refl 1)).1 hrest
      exact ⟨_, .two ha ha' hb, rfl⟩
    | three ha ha' =>
      obtain ⟨b, _, rfl, hb, hrest⟩ := (completes_of_lt_owed (by simp)).1 hrest
      obtain ⟨c, rfl, hc, rfl⟩ := (completes_of_owed_le (Nat.le_refl 1)).1 hrest
      obtain ⟨hb, hlow, hhigh⟩ := (second_iff (by decide) (by decide)).1 hb
      exact ⟨_, .three ha ha' hb hc hlow hhigh, rfl⟩
    | four ha ha' =>
      obtain ⟨b, _, rfl, hb, hrest⟩ := (completes_of_lt_owed (by simp)).1 hrest
      obtain ⟨c, _, rfl, hc, hrest⟩ := (completes_of_lt_owed (by simp)).1 hrest
      obtain ⟨d, rfl, hd, rfl⟩ := (completes_of_owed_le (Nat.le_refl 1)).1 hrest
      obtain ⟨hb, hlow, hhigh⟩ := (second_iff (by decide) (by decide)).1 hb
      exact ⟨_, .four ha ha' hb hc hd hlow hhigh, rfl⟩

theorem spells_iff : Spells octets c ↔ octets = String.utf8EncodeChar c := by
  constructor
  · intro h
    obtain ⟨n, hform, rfl⟩ := h.form
    exact (utf8EncodeChar_of_form hform).symm
  · rintro rfl
    simpa using (form_utf8EncodeChar c).spells

end SwiftInventory.Text.Utf8
