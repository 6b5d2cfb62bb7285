import SwiftInventory.Json.Reader
import SwiftInventory.Proofs.Json.Grammar

namespace SwiftInventory.Json

variable {c : Char} {s done rest : List Char}

/-- The three ways in which a character is written. -/
inductive Escape (c : Char) : List Char → Prop
  | plain (hcontrol : 0x20 ≤ c.toNat) (hquote : c ≠ '"') (hescape : c ≠ '\\') : Escape c [c]
  | short {mark : Char} (hmark : mark ∈ "\"\\/bfnrt".toList) (hread : escaped? mark = some c) :
      Escape c ['\\', mark]
  | unit {figures : List Char} (hlength : figures.length = 4)
      (hfigures : ∀ figure ∈ figures, (Text.Hex.value? figure).isSome = true)
      (hread : hexNumber? figures = some c.toNat) (hcontrol : c.toNat < 0x20) :
      Escape c ('\\' :: 'u' :: figures)

theorem hexNumber?_padded {n : Nat} (h : n < 0x20) :
    (Text.Hex.padded Text.Hex.lower 4 n).length = 4 ∧
      (∀ figure ∈ Text.Hex.padded Text.Hex.lower 4 n,
        (Text.Hex.value? figure).isSome = true) ∧
      hexNumber? (Text.Hex.padded Text.Hex.lower 4 n) = some n := by
  have hall : ((List.range 0x20).all fun n ↦
      (Text.Hex.padded Text.Hex.lower 4 n).length == 4 &&
      (Text.Hex.padded Text.Hex.lower 4 n).all (fun figure ↦ (Text.Hex.value? figure).isSome) &&
      hexNumber? (Text.Hex.padded Text.Hex.lower 4 n) == some n) = true := by decide
  simpa [and_assoc] using List.all_eq_true.1 hall n (List.mem_range.2 h)

theorem escape_escapeChar (c : Char) : Escape c (escapeChar c) := by
  by_cases hmark : c ∈ ['"', '\\', '\n', '\r', '\t', '\x08', '\x0c']
  · simp only [List.mem_cons, List.not_mem_nil, or_false] at hmark
    rcases hmark with rfl | rfl | rfl | rfl | rfl | rfl | rfl <;> exact .short (by decide) rfl
  · simp only [List.mem_cons, List.not_mem_nil, or_false, not_or] at hmark
    obtain ⟨hquote, hescape, hline, hreturn, htab, hback, hfeed⟩ := hmark
    simp only [escapeChar, beq_iff_eq, hquote, hescape, hline, hreturn, htab, hback, hfeed, if_false]
    split
    · rename_i hcontrol
      obtain ⟨hlength, hfigures, hread⟩ := hexNumber?_padded hcontrol
      exact .unit hlength hfigures hread hcontrol
    · rename_i hcontrol
      exact .plain (Nat.le_of_not_lt hcontrol) hquote hescape

theorem stringFrom_escapeChar (c : Char) :
    stringFrom none done (escapeChar c ++ rest) = stringFrom none (c :: done) rest := by
  have h := escape_escapeChar c
  generalize escapeChar c = text at h
  cases h with
  | plain hcontrol hquote hescape =>
    rw [List.singleton_append]
    simp [stringFrom, hquote, hescape, Nat.not_lt.2 hcontrol]
  | @short mark hmark hread =>
    have hmark : mark ≠ 'u' := fun h ↦ by
      rw [h] at hmark
      exact absurd hmark (by decide)
    simp [stringFrom, hread, hmark]
  | @unit figures hlength hfigures hread hcontrol =>
    obtain ⟨a, b, d, e, rfl⟩ : ∃ a b d e, figures = [a, b, d, e] := by
      match figures, hlength with
      | [a, b, d, e], _ => exact ⟨a, b, d, e, rfl⟩
    have hjoin : joinUnit? none c.toNat = some (none, some c) := by
      have hlow : ¬ 0xD800 ≤ c.toNat := by omega
      have hlow' : ¬ 0xDC00 ≤ c.toNat := by omega
      simp [joinUnit?, hlow, hlow', Char.ofNat_toNat]
    simp [stringFrom, hread, hjoin]

theorem stringFrom_escaped (s : List Char) :
    stringFrom none done (s.flatMap escapeChar ++ '"' :: rest) =
      some (String.ofList (done.reverse ++ s), rest) := by
  -- What is done is kept in reverse, so it has to be general.
  induction s generalizing done with
  | nil => simp [stringFrom]
  | cons c s ih =>
    rw [List.flatMap_cons, List.append_assoc, stringFrom_escapeChar, ih, List.reverse_cons,
      List.append_assoc]
    rfl

theorem stringFrom_stringText (s : String) :
    ∃ text, stringText s = '"' :: text ∧
      ∀ rest, stringFrom none [] (text ++ rest) = some (s, rest) := by
  refine ⟨s.toList.flatMap escapeChar ++ ['"'], rfl, fun rest ↦ ?_⟩
  rw [List.append_assoc, List.singleton_append, stringFrom_escaped, List.reverse_nil,
    List.nil_append, String.ofList_toList]

theorem isCharacters_escapeChar_append (c : Char) (h : IsCharacters s) :
    IsCharacters (escapeChar c ++ s) := by
  have hc := escape_escapeChar c
  generalize escapeChar c = text at hc
  cases hc with
  | plain hcontrol hquote hescape => exact .plain hcontrol hquote hescape h
  | short hmark => exact .escape hmark h
  | unit hlength hfigures => exact .unit hlength hfigures h

theorem isString_stringText (s : String) : IsString (stringText s) := by
  refine .mk ?_
  induction s.toList with
  | nil => exact .nil
  | cons c s ih => exact isCharacters_escapeChar_append c ih

end SwiftInventory.Json
