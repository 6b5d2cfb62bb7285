import Mathlib.Data.List.Forall2
import SwiftInventory.Proofs.Lock.Grammar

namespace SwiftInventory.Lock

variable {s name version rest : List Char} {lines : List Line}

theorem startsBlock_iff {line : Line} (h : OnOneLine (line :: lines)) :
    StartsBlock (line ++ linesText lines) ↔ (block? line lines).isSome = true := by
  rw [StartsBlock, Option.isSome_iff_exists]
  constructor
  · rintro ⟨name, version, rest, hb⟩
    obtain ⟨lines', hb, -⟩ := (blockAt_iff h).1 hb
    exact ⟨_, hb⟩
  · rintro ⟨⟨name, version, lines'⟩, hb⟩
    exact ⟨name, version, _, (blockAt_iff h).2 ⟨lines', hb, rfl⟩⟩

instance : DecidablePred StartsBlock := fun s ↦
  match h : s.splitOn '\n' with
  | [] => .isFalse (by obtain ⟨line, lines, hs, -⟩ := exists_lines s; simp [hs] at h)
  | line :: lines => decidable_of_iff ((block? line lines).isSome = true) (by
      obtain ⟨line', lines', hs, he, hl⟩ := exists_lines s
      rw [h] at hs
      cases hs
      rw [he, startsBlock_iff hl])

def startText (start : Line × List Line) : List Char := start.1 ++ linesText start.2

theorem laterLines_append {line : Line} (h : '\n' ∉ line) :
    laterLines (line ++ s) = laterLines s := by
  induction line with
  | nil => rfl
  | cons c line ih =>
    have hc : c ≠ '\n' := fun hc ↦ h (by simp [hc])
    rw [List.cons_append, laterLines, if_neg hc]
    exact ih fun hmem ↦ h (by simp [hmem])

theorem laterLines_linesText {line : Line} (h : '\n' ∉ line) :
    laterLines (linesText (line :: lines)) =
      (line ++ linesText lines) :: laterLines (linesText lines) := by
  rw [linesText_cons, laterLines, if_pos rfl, laterLines_append h]

theorem filter_laterLines (h : OnOneLine lines) :
    (laterLines (linesText lines)).filter StartsBlock = (blockStarts lines).map startText := by
  induction lines with
  | nil => rfl
  | cons line lines ih =>
    have hrest : OnOneLine lines := h.of_suffix (List.suffix_cons _ _)
    rw [laterLines_linesText (h line (by simp)), List.filter_cons, blockStarts]
    simp only [decide_eq_true_eq, startsBlock_iff h, ih hrest]
    split <;> rfl

theorem filter_fromEachLine {line : Line} (h : OnOneLine (line :: lines)) :
    (fromEachLine (line ++ linesText lines)).filter StartsBlock =
      (blockStarts (line :: lines)).map startText := by
  have hl := filter_laterLines h
  rw [laterLines_linesText (h line (by simp))] at hl
  rw [← hl, fromEachLine, laterLines_append (h line (by simp))]

theorem onOneLine_of_mem (h : OnOneLine lines) {start : Line × List Line}
    (hs : start ∈ blockStarts lines) : OnOneLine (start.1 :: start.2) := by
  induction lines with
  | nil => cases hs
  | cons line lines ih =>
    rw [blockStarts] at hs
    have hrest : OnOneLine lines := h.of_suffix (List.suffix_cons _ _)
    split at hs
    · rcases List.mem_cons.1 hs with rfl | hs
      · exact h
      · exact ih hrest hs
    · exact ih hrest hs

theorem BlockAt.unique {name' version' rest' : List Char} (h : BlockAt s name version rest)
    (h' : BlockAt s name' version' rest') : name' = name ∧ version' = version ∧ rest' = rest := by
  obtain ⟨line, lines, -, rfl, hl⟩ := exists_lines s
  obtain ⟨lines₁, hb, rfl⟩ := (blockAt_iff hl).1 h
  obtain ⟨lines₂, hb', rfl⟩ := (blockAt_iff hl).1 h'
  rw [hb] at hb'
  cases hb'
  exact ⟨rfl, rfl, rfl⟩

theorem BlockAt.apart (h : BlockAt s name version rest) :
    ∀ later ∈ laterLines s, StartsBlock later → later ∈ laterLines rest := by
  intro later hmem hstart
  obtain ⟨line, lines, -, rfl, hl⟩ := exists_lines s
  obtain ⟨lines', hb, rfl⟩ := (blockAt_iff hl).1 h
  have hlines : OnOneLine lines := hl.of_suffix (List.suffix_cons _ _)
  have hlines' : OnOneLine lines' := hlines.of_suffix (block?_suffix hb)
  rw [laterLines_append (hl line (by simp))] at hmem
  have hfilter : later ∈ (laterLines (linesText lines)).filter StartsBlock :=
    List.mem_filter.2 ⟨hmem, by simpa using hstart⟩
  rw [filter_laterLines hlines, blockStarts_of_block? hb, ← filter_laterLines hlines'] at hfilter
  exact (List.mem_filter.1 hfilter).1

/-- Every line at which a block starts gives one pin, in the order of the lines. -/
theorem pins_blockStarts (s : List Char) :
    List.Forall₂
      (fun start pin ↦ ∃ name version rest,
        BlockAt start name version rest ∧ pin = Pin.ofValues name version)
      ((fromEachLine s).filter StartsBlock) (pins s) := by
  obtain ⟨line, lines, hs, he, hl⟩ := exists_lines s
  rw [pins_eq, hs]
  conv in fromEachLine s => rw [he]
  rw [filter_fromEachLine hl, List.forall₂_map_left_iff]
  have hpins := (List.forall₂_and_left _ _).2
    ⟨fun _ ↦ onOneLine_of_mem hl, pinsOfLines_blockStarts (line :: lines)⟩
  refine hpins.imp fun start pin ⟨hstart, name, version, rest, hb, hpin⟩ ↦ ?_
  exact ⟨name, version, _, (blockAt_iff hstart).2 ⟨rest, hb, rfl⟩, hpin⟩

end SwiftInventory.Lock
