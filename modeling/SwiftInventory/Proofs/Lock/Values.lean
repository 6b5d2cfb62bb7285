import Mathlib.Data.List.Basic
import SwiftInventory.Lock.Pin
import SwiftInventory.Proofs.Trimming

namespace SwiftInventory.Lock

open Text

/-- A text and what is left of it without a quote in front. -/
inductive WithoutOpening : List Char → List Char → Prop
  | quoted (s : List Char) : WithoutOpening ('"' :: s) s
  | bare (s : List Char) (h : s.head? ≠ some '"') : WithoutOpening s s

/-- A text and what is left of it without a quote at its end, or at the end of its last line. -/
inductive WithoutClosing : List Char → List Char → Prop
  | quoted (s : List Char) : WithoutClosing (s ++ ['"']) s
  | quotedLine (s : List Char) : WithoutClosing (s ++ ['"', '\n']) (s ++ ['\n'])
  | bare (s : List Char) (h : ¬ ['"'] <:+ s) (hline : ¬ ['"', '\n'] <:+ s) : WithoutClosing s s

def Unquoted (s u : List Char) : Prop := ∃ t, WithoutOpening s t ∧ WithoutClosing t u

/-- A text and what is left of it without the spaces and tabs at its end and one comma in front of
those. -/
def Trimmed (s u : List Char) : Prop :=
  ∃ t blanks, s = t ++ blanks ∧ (∀ c ∈ blanks, isIndent c = true) ∧
    (∀ c ∈ t.getLast?, isIndent c = false) ∧ (t = u ++ [','] ∨ ¬ [','] <:+ t ∧ u = t)

variable {s t u : List Char}

theorem withoutOpening_iff :
    WithoutOpening s t ↔ t = if s.head? == some '"' then s.drop 1 else s := by
  constructor
  · rintro (s | ⟨s, h⟩)
    · rfl
    · rw [if_neg (by simpa using h)]
  · rintro rfl
    split <;> rename_i h
    · obtain ⟨s, rfl⟩ : ∃ s', s = '"' :: s' := List.head?_eq_some_iff.1 (by simpa using h)
      exact .quoted s
    · exact .bare s (by simpa using h)

theorem eq_unquote (ho : WithoutOpening s t) (hc : WithoutClosing t u) : u = unquote s := by
  simp only [unquote, ← withoutOpening_iff.1 ho]
  cases hc with
  | quoted => simp
  | quotedLine => simp
  | bare _ h hline =>
    split <;> rename_i before he
    · exact absurd ⟨before.reverse, (List.reverse_eq_cons_iff.1 he).symm⟩ h
    · have hend := List.reverse_eq_cons_iff.1 he
      rw [List.reverse_cons, List.append_assoc] at hend
      exact absurd ⟨before.reverse, hend.symm⟩ hline
    · rfl

theorem withoutClosing_unquote (ho : WithoutOpening s t) : WithoutClosing t (unquote s) := by
  simp only [unquote, ← withoutOpening_iff.1 ho]
  split
  · rename_i before he
    rw [List.reverse_eq_cons_iff.1 he]
    exact .quoted _
  · rename_i before he
    rw [List.reverse_eq_cons_iff.1 he, List.reverse_cons, List.append_assoc, List.reverse_cons]
    exact .quotedLine _
  · rename_i hquote hline
    refine .bare t ?_ ?_
    · rintro ⟨s, rfl⟩
      exact hquote s.reverse (by simp)
    · rintro ⟨s, rfl⟩
      exact hline s.reverse (by simp)

theorem unquoted_iff : Unquoted s u ↔ u = unquote s := by
  constructor
  · rintro ⟨t, ho, hc⟩
    exact eq_unquote ho hc
  · rintro rfl
    exact ⟨_, withoutOpening_iff.2 rfl, withoutClosing_unquote (withoutOpening_iff.2 rfl)⟩

theorem dropComma_eq (h : t = u ++ [','] ∨ ¬ [','] <:+ t ∧ u = t) : dropComma t = u := by
  rcases h with rfl | ⟨h, rfl⟩
  · simp [dropComma]
  · rw [dropComma, if_neg]
    rw [beq_iff_eq, List.getLast?_eq_some_iff]
    rintro ⟨s, rfl⟩
    exact h ⟨s, rfl⟩

theorem dropComma_cases (t : List Char) :
    t = dropComma t ++ [','] ∨ ¬ [','] <:+ t ∧ dropComma t = t := by
  rw [dropComma]
  split <;> rename_i h
  · obtain ⟨s, rfl⟩ := List.getLast?_eq_some_iff.1 (beq_iff_eq.1 h)
    simp
  · refine .inr ⟨?_, rfl⟩
    rintro ⟨s, rfl⟩
    simp at h

theorem trimmed_iff : Trimmed s u ↔ u = trimVersion s := by
  constructor
  · rintro ⟨t, blanks, rfl, hblanks, hlast, hcomma⟩
    have hreverse : ((t ++ blanks).reverse.dropWhile isIndent).reverse = t := by
      rw [List.reverse_append, dropWhile_exact (by simpa using hblanks) (by simpa using hlast),
        List.reverse_reverse]
    rw [trimVersion, hreverse, dropComma_eq hcomma]
  · rintro rfl
    have hsplit := List.takeWhile_append_dropWhile (p := isIndent) (l := s.reverse)
    refine ⟨(s.reverse.dropWhile isIndent).reverse, (s.reverse.takeWhile isIndent).reverse, ?_, ?_,
      ?_, dropComma_cases _⟩
    · rw [← List.reverse_append, hsplit, List.reverse_reverse]
    · intro c hc
      exact List.mem_takeWhile_imp (List.mem_reverse.1 hc)
    · rw [List.getLast?_reverse]
      exact head_dropWhile

/-- The values of a pin are what two fields hold, without their quotes, and the second one without
what trails behind it. -/
def Pin.HasValues (pin : Pin) (name version : Line) : Prop :=
  Unquoted name pin.name.toList ∧ ∃ trimmed, Trimmed version trimmed ∧
    Unquoted trimmed pin.version.toList

theorem Pin.hasValues_iff {pin : Pin} {name version : Line} :
    pin.HasValues name version ↔ pin = .ofValues name version := by
  simp only [HasValues, trimmed_iff, unquoted_iff, exists_eq_left, ofValues]
  constructor
  · rintro ⟨hname, hversion⟩
    rw [← hname, ← hversion, String.ofList_toList, String.ofList_toList]
  · rintro rfl
    exact ⟨String.toList_ofList, String.toList_ofList⟩

end SwiftInventory.Lock
