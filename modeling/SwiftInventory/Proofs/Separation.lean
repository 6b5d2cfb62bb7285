import Mathlib.Data.List.TakeDrop
import Mathlib.Data.List.TakeWhile
import SwiftInventory.Text.Basic

namespace SwiftInventory.Text

variable {α : Type} {a : α} {x y z w : List α}

theorem append_cons_inj (hx : a ∉ x) (hy : a ∉ y) (h : x ++ a :: z = y ++ a :: w) :
    x = y ∧ z = w := by
  rcases List.append_eq_append_iff.1 h with ⟨c, rfl, hc⟩ | ⟨c, rfl, hc⟩
  · cases c with
    | nil => exact ⟨by simp, by simpa using hc⟩
    | cons b c =>
      obtain ⟨rfl, -⟩ := List.cons.inj hc
      simp at hy
  · cases c with
    | nil => exact ⟨by simp, by simpa using hc.symm⟩
    | cons b c =>
      obtain ⟨rfl, -⟩ := List.cons.inj hc
      simp at hx

variable [BEq α] [LawfulBEq α]

theorem not_mem_takeWhile_ne : a ∉ x.takeWhile (· != a) :=
  fun h ↦ by simpa using List.mem_takeWhile_imp h

theorem dropWhile_ne_cases (a : α) (x : List α) :
    x.dropWhile (· != a) = [] ∨ ∃ t, x.dropWhile (· != a) = a :: t := by
  cases hd : x.dropWhile (· != a) with
  | nil => exact .inl rfl
  | cons b t =>
    have hb : b = a := by simpa [hd] using List.head?_dropWhile_not (· != a) x
    exact .inr ⟨t, by rw [hb]⟩

section Characters

variable {c d : Char} {s t front : List Char}

theorem span_append {p : Char → Bool} (h : ∀ c ∈ s, p c = true)
    (hrest : ∀ c ∈ t.head?, p c = false) : (s ++ t).span p = (s, t) := by
  rw [List.span_eq_takeWhile_dropWhile, List.takeWhile_append_of_pos h,
    List.dropWhile_append_of_pos h]
  cases t with
  | nil => simp
  | cons c t =>
    have hc : ¬ p c = true := by simpa using hrest c rfl
    rw [List.takeWhile_cons_of_neg hc, List.dropWhile_cons_of_neg hc, List.append_nil]

theorem not_mem_of_span_nil (h : s.span (· != c) = (front, [])) : c ∉ s := by
  rw [List.span_eq_takeWhile_dropWhile, Prod.mk.injEq, List.dropWhile_eq_nil_iff] at h
  exact fun hc ↦ by simpa using h.2 c hc

theorem eq_of_span_cons (h : s.span (· != c) = (front, d :: t)) :
    s = front ++ c :: t ∧ c ∉ front := by
  rw [List.span_eq_takeWhile_dropWhile, Prod.mk.injEq] at h
  obtain ⟨rfl, hrest⟩ := h
  rcases dropWhile_ne_cases c s with hnil | ⟨t, ht⟩
  · simp [hnil] at hrest
  · obtain ⟨-, rfl⟩ := List.cons.inj (ht.symm.trans hrest)
    exact ⟨by rw [← ht, List.takeWhile_append_dropWhile], not_mem_takeWhile_ne⟩

theorem ne_of_mem_reverse (h : c ∉ s) : ∀ d ∈ s.reverse, (d != c) = true := by
  intro d hd
  have hne : d ≠ c := fun he ↦ h (he ▸ List.mem_reverse.1 hd)
  simpa using hne

theorem splitAtLast?_append (h : c ∉ t) : splitAtLast? c (s ++ c :: t) = some (s, t) := by
  have hspan : (t.reverse ++ c :: s.reverse).span (· != c) = (t.reverse, c :: s.reverse) :=
    span_append (ne_of_mem_reverse h) (by simp)
  have hrev : (s ++ c :: t).reverse = t.reverse ++ c :: s.reverse := by simp
  rw [splitAtLast?, hrev, hspan]
  simp only [List.reverse_reverse]

theorem splitAtLast?_of_not_mem (h : c ∉ s) : splitAtLast? c s = none := by
  have hspan := span_append (t := []) (ne_of_mem_reverse h) (by simp)
  rw [List.append_nil] at hspan
  rw [splitAtLast?, hspan]

end Characters

end SwiftInventory.Text
