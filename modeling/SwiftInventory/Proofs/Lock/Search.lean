import Mathlib.Data.List.Basic
import Mathlib.Data.List.TakeWhile
import SwiftInventory.Lock.Pin

namespace SwiftInventory.Lock

open Text

def keyText (key : String) : Line := ("\"" ++ key ++ "\":").toList

variable {key : String} {line s value name version : Line} {lines rest : List Line}

theorem keyText_eq : keyText key = '"' :: (key.toList ++ ['"', ':']) := by
  simp [keyText]

theorem fieldAt?_keyText : fieldAt? key (keyText key ++ s) = some (s.dropWhile isIndent) := by
  have h : (keyText key).isPrefixOf? (keyText key ++ s) = some s :=
    List.isPrefixOf?_eq_some_iff_append_eq.2 rfl
  rw [fieldAt?, ← keyText, h, Option.map_some]

theorem fieldAt?_eq_none : fieldAt? key s = none ↔ ¬ keyText key <+: s := by
  rw [fieldAt?, ← keyText, Option.map_eq_none_iff, ← Option.not_isSome_iff_eq_none,
    List.isSome_isPrefixOf?_eq_isPrefixOf, List.isPrefixOf_iff_prefix]

theorem endsWithComma_dropWhile : endsWithComma ((s ++ [',']).dropWhile isIndent) = true := by
  have hc : isIndent ',' = false := by decide
  rw [List.dropWhile_append]
  split <;> simp [endsWithComma, hc]

theorem nextField?_length (h : nextField? key lines = some (value, rest)) :
    rest.length < lines.length := by
  have hle := List.length_dropWhile_le (·.all isBlank) lines
  simp only [nextField?] at h
  split at h
  · simp at h
  · rename_i hl
    obtain ⟨_, _, he⟩ := Option.map_eq_some_iff.1 h
    cases he
    rw [hl, List.length_cons] at hle
    omega

theorem nextInnerField?_eq_some :
    nextInnerField? key lines = some (value, rest) ↔
      nextField? key lines = some (value, rest) ∧ endsWithComma value = true ∧ rest ≠ [] := by
  simp [nextInnerField?, Option.filter_eq_some_iff]

theorem stateFields?_eq_some :
    stateFields? lines = some (version, rest) ↔
      ∃ branch lines₁ revision lines₂, nextInnerField? "branch" lines = some (branch, lines₁) ∧
        nextInnerField? "revision" lines₁ = some (revision, lines₂) ∧
          nextField? "version" lines₂ = some (version, rest) := by
  simp [stateFields?, Option.bind_eq_some_iff]

/-- A line may be left out before the state, and this is tried first. -/
theorem block?_eq_some :
    block? line lines = some (name, version, rest) ↔
      ∃ value url lines₁, fieldAt? "package" (line.dropWhile isIndent) = some value ∧
        endsWithComma value = true ∧ name = value.dropLast ∧
        nextInnerField? "repositoryURL" lines = some (url, lines₁) ∧
        (stateFields? (lines₁.drop 1)).or (stateFields? lines₁) = some (version, rest) := by
  have hor (lines₁ : List Line) : (stateFields? (lines₁.drop 1) <|> stateFields? lines₁) =
      (stateFields? (lines₁.drop 1)).or (stateFields? lines₁) := by
    cases stateFields? (lines₁.drop 1) <;> rfl
  simp only [block?, Option.bind_eq_bind, Option.bind_eq_some_iff, hor]
  constructor
  · rintro ⟨value, hv, h⟩
    split at h
    · simp at h
    · rename_i hc
      simp only [Option.bind_eq_some_iff] at h
      obtain ⟨⟨url, lines₁⟩, hu, ⟨_, _⟩, hs, he⟩ := h
      cases he
      exact ⟨value, url, lines₁, hv, by simp_all, rfl, hu, hs⟩
  · rintro ⟨value, url, lines₁, hv, hc, rfl, hu, hs⟩
    have hne : lines ≠ [] := by
      rintro rfl
      simp [nextInnerField?, nextField?] at hu
    refine ⟨value, hv, ?_⟩
    rw [if_neg (by simp [hc, hne]), hu, Option.bind_some, hs, Option.bind_some]

theorem stateFields?_length (h : stateFields? lines = some (version, rest)) :
    rest.length < lines.length := by
  obtain ⟨_, _, _, _, hb, hr, hv⟩ := stateFields?_eq_some.1 h
  have hb := nextField?_length (nextInnerField?_eq_some.1 hb).1
  have hr := nextField?_length (nextInnerField?_eq_some.1 hr).1
  have hv := nextField?_length hv
  omega

theorem or_stateFields?_length
    (h : (stateFields? (lines.drop 1)).or (stateFields? lines) = some (version, rest)) :
    rest.length < lines.length := by
  rcases Option.or_eq_some_iff.1 h with h | ⟨-, h⟩
  · have hlt := stateFields?_length h
    rw [List.length_drop] at hlt
    omega
  · exact stateFields?_length h

theorem block?_length (h : block? line lines = some (name, version, rest)) :
    rest.length < lines.length := by
  obtain ⟨_, _, lines₁, _, _, _, hu, hs⟩ := block?_eq_some.1 h
  have hu := nextField?_length (nextInnerField?_eq_some.1 hu).1
  exact (or_stateFields?_length hs).trans hu

def pinsOfLines (lines : List Line) : List Pin := pinsFrom lines.length [] lines

theorem pins_eq (s : List Char) : pins s = pinsOfLines (s.splitOn '\n') := rfl

/-- The pins found so far are only put in front, and a bound that lets the search pass every line
does not show. -/
theorem pinsFrom_eq {n : Nat} {done : List Pin} (h : lines.length ≤ n) :
    pinsFrom n done lines = done.reverse ++ pinsOfLines lines := by
  induction n using Nat.strong_induction_on generalizing done lines with
  | _ n ih =>
    cases lines with
    | nil => cases n <;> simp [pinsFrom, pinsOfLines]
    | cons line lines =>
      have hpos : n ≠ 0 := by
        rintro rfl
        simp at h
      obtain ⟨n, rfl⟩ := Nat.exists_eq_add_one_of_ne_zero hpos
      have hn : lines.length ≤ n := Nat.le_of_succ_le_succ h
      rw [pinsOfLines, List.length_cons, pinsFrom, pinsFrom]
      cases hb : block? line lines with
      | none => rw [ih n (by omega) hn, pinsOfLines]
      | some b =>
        obtain ⟨name, version, rest⟩ := b
        have hr := block?_length hb
        simp only
        rw [ih n (by omega) (by omega), ih lines.length (by omega) (by omega)]
        simp

theorem pinsOfLines_cons_of_none (h : block? line lines = none) :
    pinsOfLines (line :: lines) = pinsOfLines lines := by
  rw [pinsOfLines, List.length_cons, pinsFrom, h]
  rfl

theorem pinsOfLines_cons_of_some (h : block? line lines = some (name, version, rest)) :
    pinsOfLines (line :: lines) = .ofValues name version :: pinsOfLines rest := by
  rw [pinsOfLines, List.length_cons, pinsFrom, h]
  exact pinsFrom_eq (Nat.le_of_lt (block?_length h))

end SwiftInventory.Lock
