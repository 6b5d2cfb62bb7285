import Mathlib.Data.List.TakeWhile
import SwiftInventory.Text.Basic
import SwiftInventory.Text.Lowercase

namespace SwiftInventory.Text

variable {s : List Char}

theorem forall_ascii {P : Char → Prop} (h : ∀ n < 0x80, P (Char.ofNat n)) {c : Char}
    (hc : c.toNat < 0x80) : P c := by
  have hn := h c.toNat hc
  rwa [Char.ofNat_toNat] at hn

def blankCodes : List Nat :=
  [0x09, 0x0A, 0x0B, 0x0C, 0x0D, 0x1C, 0x1D, 0x1E, 0x1F, 0x20, 0x85, 0xA0, 0x1680, 0x2000, 0x2001,
    0x2002, 0x2003, 0x2004, 0x2005, 0x2006, 0x2007, 0x2008, 0x2009, 0x200A, 0x2028, 0x2029, 0x202F,
    0x205F, 0x3000]

theorem toNat_mem_blankCodes {c : Char} (h : isBlank c = true) : c.toNat ∈ blankCodes := by
  simp only [isBlank, Bool.or_eq_true, Bool.and_eq_true, decide_eq_true_eq, beq_iff_eq] at h
  simp only [blankCodes, List.mem_cons, List.not_mem_nil, or_false]
  omega

theorem isBlank_of_isIndent {c : Char} (h : isIndent c = true) : isBlank c = true := by
  rcases (by simpa [isIndent] using h : c = ' ' ∨ c = '\t') with rfl | rfl <;> decide

theorem dropWhile_eq_self_of_forall {p : Char → Bool} (h : ∀ c ∈ s, p c = false) :
    s.dropWhile p = s := by
  refine List.dropWhile_eq_self_iff.2 fun hl ↦ ?_
  simp [h _ (List.getElem_mem hl)]

theorem dropWhile_exact {p : Char → Bool} {a t : List Char} (ha : ∀ c ∈ a, p c = true)
    (ht : ∀ c ∈ t.head?, p c = false) : (a ++ t).dropWhile p = t := by
  rw [List.dropWhile_append_of_pos ha]
  cases t with
  | nil => rfl
  | cons c t => rw [List.dropWhile_cons_of_neg (by simp [ht c rfl])]

theorem head_dropWhile {p : Char → Bool} {t : List Char} :
    ∀ c ∈ (t.dropWhile p).head?, p c = false := by
  intro c hc
  have h := List.head?_dropWhile_not p t
  rw [hc] at h
  exact h

theorem dropWhile_both_ends {p : Char → Bool} {before t after : List Char}
    (hbefore : ∀ c ∈ before, p c = true) (hafter : ∀ c ∈ after, p c = true)
    (hhead : ∀ c ∈ t.head?, p c = false) (hlast : ∀ c ∈ t.getLast?, p c = false) (hne : t ≠ []) :
    (((before ++ (t ++ after)).dropWhile p).reverse.dropWhile p).reverse = t := by
  have hhead' : ∀ c ∈ (t ++ after).head?, p c = false := by
    cases t with
    | nil => exact absurd rfl hne
    | cons d t => exact hhead
  have hafter' : ∀ c ∈ after.reverse, p c = true := fun c hc ↦ hafter c (List.mem_reverse.1 hc)
  have hlast' : ∀ c ∈ t.reverse.head?, p c = false := by rwa [List.head?_reverse]
  rw [dropWhile_exact hbefore hhead', List.reverse_append, dropWhile_exact hafter' hlast',
    List.reverse_reverse]

theorem exists_dropWhile_both_ends (p : Char → Bool) (s : List Char) :
    ∃ before after, (∀ c ∈ before, p c = true) ∧ (∀ c ∈ after, p c = true) ∧
      s = before ++ (((s.dropWhile p).reverse.dropWhile p).reverse ++ after) := by
  refine ⟨s.takeWhile p, ((s.dropWhile p).reverse.takeWhile p).reverse, ?_, ?_, ?_⟩
  · exact fun c hc ↦ List.mem_takeWhile_imp hc
  · exact fun c hc ↦ List.mem_takeWhile_imp (List.mem_reverse.1 hc)
  · rw [← List.reverse_append, List.takeWhile_append_dropWhile, List.reverse_reverse,
      List.takeWhile_append_dropWhile]

theorem trim_of_forall (h : ∀ c ∈ s, isBlank c = false) : trim s = s := by
  have hr : ∀ c ∈ s.reverse, isBlank c = false := fun c hc ↦ h c (List.mem_reverse.1 hc)
  rw [trim, trimStart, dropWhile_eq_self_of_forall h, trimEnd, dropWhile_eq_self_of_forall hr,
    List.reverse_reverse]

theorem dropWhile_both_ends_eq_nil {p : Char → Bool} :
    ((s.dropWhile p).reverse.dropWhile p).reverse = [] ↔ ∀ x ∈ s, p x = true := by
  simp only [List.reverse_eq_nil_iff, List.dropWhile_eq_nil_iff, List.mem_reverse]
  constructor
  · intro h
    have hnil : s.dropWhile p = [] := by
      cases hs : s.dropWhile p with
      | nil => rfl
      | cons x rest =>
        have hx := head_dropWhile (p := p) (t := s) x (by rw [hs]; rfl)
        rw [h x (by simp [hs])] at hx
        cases hx
    exact List.dropWhile_eq_nil_iff.1 hnil
  · exact fun h x hx ↦ h x (List.dropWhile_subset _ hx)

theorem trim_eq_nil : trim s = [] ↔ ∀ c ∈ s, isBlank c = true := dropWhile_both_ends_eq_nil

def IsTrimmed (s : List Char) : Prop :=
  (∀ c ∈ s.head?, isBlank c = false) ∧ ∀ c ∈ s.getLast?, isBlank c = false

theorem exists_trimEnd_append (s : List Char) : trimEnd s <+: s := by
  have h := List.dropWhile_suffix (l := s.reverse) isBlank
  rwa [← List.reverse_prefix, List.reverse_reverse] at h

theorem isTrimmed_trim (s : List Char) : IsTrimmed (trim s) := by
  constructor
  · intro c hc
    obtain ⟨rest, hrest⟩ := exists_trimEnd_append (trimStart s)
    apply head_dropWhile (t := s)
    rw [← trimStart, ← hrest]
    rw [List.head?_append, ← trim, Option.mem_def.1 hc]
    rfl
  · intro c hc
    rw [trim, trimEnd, List.getLast?_reverse] at hc
    exact head_dropWhile c hc

theorem mem_of_mem_trim {c : Char} (h : c ∈ trim s) : c ∈ s :=
  List.dropWhile_subset _ ((exists_trimEnd_append (trimStart s)).subset h)

theorem stripAll_eq_nil {c : Char} : stripAll c s = [] ↔ ∀ x ∈ s, x = c := by
  rw [stripAll, dropWhile_both_ends_eq_nil]
  simp only [beq_iff_eq]

theorem stripAll_of_ends {c : Char} (hhead : s.head? ≠ some c) (hlast : s.getLast? ≠ some c) :
    stripAll c s = s := by
  have hdrop {t : List Char} (h : t.head? ≠ some c) : t.dropWhile (· == c) = t := by
    cases t with
    | nil => rfl
    | cons d t => exact List.dropWhile_cons_of_neg (by simpa using h)
  have hrev : s.reverse.head? ≠ some c := by rwa [List.head?_reverse]
  rw [stripAll, hdrop hhead, hdrop hrev, List.reverse_reverse]

theorem stripAll_of_not_mem {c : Char} (h : c ∉ s) : stripAll c s = s :=
  stripAll_of_ends (fun hhead ↦ h (List.mem_of_mem_head? hhead))
    fun hlast ↦ h (List.mem_of_mem_getLast? hlast)

theorem smallLetter_of_lt {c : Char} (h : c.toNat < 0x80) : smallLetter c = c.toLower := if_pos h

theorem lowercaseFrom_of_ascii {before done : List Char} (h : ∀ c ∈ s, c.toNat < 0x80) :
    lowercaseFrom before done s = done.reverse ++ s.map Char.toLower := by
  induction s generalizing before done with
  | nil => simp [lowercaseFrom]
  | cons c s ih =>
    have hc := h c List.mem_cons_self
    have hsigma : (c == 'Σ') = false := by
      rw [beq_eq_false_iff_ne]
      rintro rfl
      exact absurd hc (by decide)
    have hdotted : (c == 'İ') = false := by
      rw [beq_eq_false_iff_ne]
      rintro rfl
      exact absurd hc (by decide)
    rw [lowercaseFrom, hsigma, hdotted, smallLetter_of_lt hc]
    simp only [Bool.false_eq_true, if_false]
    rw [ih fun d hd ↦ h d (List.mem_cons_of_mem _ hd)]
    simp

theorem lowercase_of_ascii (h : ∀ c ∈ s, c.toNat < 0x80) : lowercase s = s.map Char.toLower :=
  lowercaseFrom_of_ascii h

theorem lowercaseFrom_eq_nil {before done : List Char} :
    lowercaseFrom before done s = [] ↔ done = [] ∧ s = [] := by
  induction s generalizing before done with
  | nil => simp [lowercaseFrom]
  | cons c rest ih =>
    simp only [lowercaseFrom, ih, List.append_eq_nil_iff]
    split <;> [simp; split <;> simp]

theorem lowercase_eq_nil : lowercase s = [] ↔ s = [] := by
  simp [lowercase, lowercaseFrom_eq_nil]

end SwiftInventory.Text
