import SwiftInventory.Proofs.Lock.Search
import SwiftInventory.Proofs.Separation
import SwiftInventory.Proofs.Trimming

namespace SwiftInventory.Lock

open Text

variable {key key' : String} {line s value value' name version version' : Line}
  {lines rest rest' : List Line}

theorem fieldAt?_eq_some :
    fieldAt? key s = some value ↔ ∃ t, s = keyText key ++ t ∧ value = t.dropWhile isIndent := by
  rw [fieldAt?, ← keyText, Option.map_eq_some_iff]
  simp only [List.isPrefixOf?_eq_some_iff_append_eq]
  exact exists_congr fun _ ↦ and_congr eq_comm eq_comm

theorem key_unique (hk : '"' ∉ key.toList) (hk' : '"' ∉ key'.toList)
    (h : keyText key <+: s) (h' : keyText key' <+: s) : key = key' := by
  obtain ⟨t, rfl⟩ := h
  obtain ⟨t', h⟩ := h'
  simp only [keyText_eq, List.cons_append, List.append_assoc, List.cons.injEq, true_and] at h
  exact String.toList_inj.1 (append_cons_inj hk' hk h).1.symm

theorem nextField?_cons_of_blank (h : line.all isBlank = true) :
    nextField? key (line :: lines) = nextField? key lines := by
  simp only [nextField?, List.dropWhile_cons, h, if_true]

theorem nextField?_cons_of_not_blank (h : ¬ line.all isBlank = true) :
    nextField? key (line :: lines) = (fieldAt? key (trimStart line)).map (·, lines) := by
  simp only [nextField?, List.dropWhile_cons, h, Bool.false_eq_true, if_false]

theorem nextField?_key_unique (hk : '"' ∉ key.toList) (hk' : '"' ∉ key'.toList)
    (h : nextField? key lines = some (value, rest))
    (h' : nextField? key' lines = some (value', rest')) : key = key' := by
  induction lines with
  | nil => cases h
  | cons line lines ih =>
    by_cases hb : line.all isBlank = true
    · rw [nextField?_cons_of_blank hb] at h h'
      exact ih h h'
    · rw [nextField?_cons_of_not_blank hb] at h h'
      obtain ⟨v, hv, -⟩ := Option.map_eq_some_iff.1 h
      obtain ⟨v', hv', -⟩ := Option.map_eq_some_iff.1 h'
      obtain ⟨t, ht, -⟩ := fieldAt?_eq_some.1 hv
      obtain ⟨t', ht', -⟩ := fieldAt?_eq_some.1 hv'
      exact key_unique hk hk' ⟨t, ht.symm⟩ ⟨t', ht'.symm⟩

theorem trimStart_dropWhile : trimStart (s.dropWhile isIndent) = trimStart s := by
  induction s with
  | nil => rfl
  | cons c s ih =>
    by_cases hc : isIndent c = true
    · rw [List.dropWhile_cons_of_pos hc, ih, trimStart, trimStart,
        List.dropWhile_cons_of_pos (isBlank_of_isIndent hc)]
    · rw [List.dropWhile_cons_of_neg hc]

theorem trimStart_keyText {t : Line} : trimStart (keyText key ++ t) = keyText key ++ t := by
  have hq : isBlank '"' = false := rfl
  simp [trimStart, keyText_eq, hq]

theorem keyText_prefix_of_block? (h : block? line lines = some (name, version, rest)) :
    keyText "package" <+: trimStart line := by
  obtain ⟨value, _, _, hv, -⟩ := block?_eq_some.1 h
  obtain ⟨t, ht, -⟩ := fieldAt?_eq_some.1 hv
  have hline : trimStart line = keyText "package" ++ t := by
    rw [← trimStart_dropWhile, ht, trimStart_keyText]
  exact ⟨t, hline.symm⟩

theorem block?_eq_none (h : ¬ keyText "package" <+: trimStart line) : block? line lines = none := by
  cases hb : block? line lines with
  | none => rfl
  | some b => exact absurd (keyText_prefix_of_block? hb) h

def blockStarts : List Line → List (Line × List Line)
  | [] => []
  | line :: lines =>
    if (block? line lines).isSome then (line, lines) :: blockStarts lines else blockStarts lines

theorem blockStarts_cons_of_none (h : block? line lines = none) :
    blockStarts (line :: lines) = blockStarts lines := by
  rw [blockStarts, h]
  rfl

theorem blockStarts_of_nextField? (hk : '"' ∉ key.toList) (hp : key ≠ "package")
    (h : nextField? key lines = some (value, rest)) : blockStarts lines = blockStarts rest := by
  induction lines with
  | nil => cases h
  | cons line lines ih =>
    by_cases hb : line.all isBlank = true
    · have hline : trimStart line = [] := by
        simpa [trimStart, List.dropWhile_eq_nil_iff] using hb
      have hno : ¬ keyText "package" <+: trimStart line := by simp [hline, keyText_eq]
      rw [nextField?_cons_of_blank hb] at h
      rw [blockStarts_cons_of_none (block?_eq_none hno), ih h]
    · rw [nextField?_cons_of_not_blank hb] at h
      obtain ⟨v, hv, he⟩ := Option.map_eq_some_iff.1 h
      obtain ⟨t, ht, -⟩ := fieldAt?_eq_some.1 hv
      have hno : ¬ keyText "package" <+: trimStart line := fun hpackage ↦
        hp (key_unique hk (by decide) ⟨t, ht.symm⟩ hpackage)
      cases he
      exact blockStarts_cons_of_none (block?_eq_none hno)

theorem blockStarts_of_nextInnerField? (hk : '"' ∉ key.toList) (hp : key ≠ "package")
    (h : nextInnerField? key lines = some (value, rest)) : blockStarts lines = blockStarts rest :=
  blockStarts_of_nextField? hk hp (nextInnerField?_eq_some.1 h).1

theorem blockStarts_of_stateFields? (h : stateFields? lines = some (version, rest)) :
    blockStarts lines = blockStarts rest := by
  obtain ⟨_, lines₁, _, lines₂, hb, hr, hv⟩ := stateFields?_eq_some.1 h
  calc blockStarts lines
    _ = blockStarts lines₁ := blockStarts_of_nextInnerField? (by decide) (by decide) hb
    _ = blockStarts lines₂ := blockStarts_of_nextInnerField? (by decide) (by decide) hr
    _ = blockStarts rest := blockStarts_of_nextField? (by decide) (by decide) hv

/-- The line before a branch starts no block, whatever it is: a repository would have to come
next. -/
theorem block?_eq_none_of_stateFields? (h : stateFields? lines = some (version, rest)) :
    block? line lines = none := by
  obtain ⟨_, _, _, _, hb, -, -⟩ := stateFields?_eq_some.1 h
  cases hl : block? line lines with
  | none => rfl
  | some b =>
    obtain ⟨_, _, _, -, -, -, hu, -⟩ := block?_eq_some.1 hl
    have he := nextField?_key_unique (by decide) (by decide) (nextInnerField?_eq_some.1 hu).1
      (nextInnerField?_eq_some.1 hb).1
    exact absurd he (by decide)

theorem blockStarts_of_block? (h : block? line lines = some (name, version, rest)) :
    blockStarts lines = blockStarts rest := by
  obtain ⟨_, _, lines₁, -, -, -, hu, hs⟩ := block?_eq_some.1 h
  rw [blockStarts_of_nextInnerField? (by decide) (by decide) hu]
  -- The line that may be left out starts no block either.
  rcases Option.or_eq_some_iff.1 hs with hs | ⟨-, hs⟩
  · cases lines₁ with
    | nil => exact blockStarts_of_stateFields? hs
    | cons line' lines' =>
      rw [List.drop_one, List.tail_cons] at hs
      rw [blockStarts_cons_of_none (block?_eq_none_of_stateFields? hs),
        blockStarts_of_stateFields? hs]
  · exact blockStarts_of_stateFields? hs

/-- Leaving out a line makes no difference where the fields can be read with it and without it:
the line is blank then. -/
theorem stateFields?_unique (h : stateFields? (line :: lines) = some (version, rest))
    (h' : stateFields? lines = some (version', rest')) : version = version' ∧ rest = rest' := by
  by_cases hb : line.all isBlank = true
  · have he : stateFields? (line :: lines) = stateFields? lines := by
      simp only [stateFields?, nextInnerField?, nextField?_cons_of_blank hb]
    rw [he, h'] at h
    cases h
    exact ⟨rfl, rfl⟩
  · obtain ⟨_, _, _, _, hbranch, hrevision, -⟩ := stateFields?_eq_some.1 h
    have hnext := (nextInnerField?_eq_some.1 hbranch).1
    rw [nextField?_cons_of_not_blank hb] at hnext
    obtain ⟨_, -, he⟩ := Option.map_eq_some_iff.1 hnext
    cases he
    obtain ⟨_, _, _, _, hbranch', -, -⟩ := stateFields?_eq_some.1 h'
    have he := nextField?_key_unique (by decide) (by decide) (nextInnerField?_eq_some.1 hrevision).1
      (nextInnerField?_eq_some.1 hbranch').1
    exact absurd he (by decide)

/-- The search comes to every line at which a block starts. -/
theorem pinsOfLines_blockStarts (lines : List Line) :
    List.Forall₂ (fun start pin ↦ ∃ name version rest,
      block? start.1 start.2 = some (name, version, rest) ∧ pin = .ofValues name version)
      (blockStarts lines) (pinsOfLines lines) := by
  -- Behind a block the search goes on with the rest, so the number of lines carries the induction.
  induction hn : lines.length using Nat.strong_induction_on generalizing lines with
  | _ n ih =>
    cases lines with
    | nil => exact .nil
    | cons line lines =>
      rw [List.length_cons] at hn
      cases hb : block? line lines with
      | none =>
        rw [blockStarts_cons_of_none hb, pinsOfLines_cons_of_none hb]
        exact ih lines.length (by omega) lines rfl
      | some b =>
        obtain ⟨name, version, rest⟩ := b
        have hrest := block?_length hb
        rw [blockStarts, hb, Option.isSome_some, if_pos rfl, pinsOfLines_cons_of_some hb,
          blockStarts_of_block? hb]
        exact .cons ⟨name, version, rest, hb, rfl⟩ (ih rest.length (by omega) rest rfl)

end SwiftInventory.Lock
