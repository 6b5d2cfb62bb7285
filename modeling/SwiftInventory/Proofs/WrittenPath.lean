import Mathlib.Data.List.Basic
import SwiftInventory.Path

namespace SwiftInventory.Path

variable {p : Path} {part : Part} {parts : List Part}

def Part.chars (part : Part) : List Char := part.text.toList

theorem Part.slash_not_mem (part : Part) : '/' ∉ part.chars := part.text_plain.2.2

theorem Part.chars_ne_nil (part : Part) : part.chars ≠ [] := by
  have hne : part.text ≠ "" := part.text_plain.1
  rw [Part.chars, ne_eq, String.toList_eq_nil_iff]
  exact hne

theorem slash_not_mem_name (p : Path) : '/' ∉ p.name.toList := by
  rw [name]
  split
  · exact Part.slash_not_mem _
  · simp

theorem Part.ofText?_text (part : Part) : Part.ofText? part.text = some part :=
  dif_pos part.text_plain

def Root.words : Root → List (List Char)
  | relative => []
  | absolute => [[]]
  | doubled => [[], []]

theorem Root.eq_nil_of_mem_words {root : Root} {word : List Char} (h : word ∈ root.words) :
    word = [] := by
  cases root <;> simp_all [Root.words]

/-- What stands between the slashes of the written form. -/
def words (p : Path) : List (List Char) :=
  p.root.words ++
    if p.parts = [] then [if p.root = .relative then ['.'] else []] else p.parts.map Part.chars

theorem slash_not_mem_words : ∀ word ∈ p.words, '/' ∉ word := by
  intro word hword
  rcases List.mem_append.1 hword with h | h
  · simp [Root.eq_nil_of_mem_words h]
  · split at h
    · split at h <;> simp_all
    · obtain ⟨part, -, rfl⟩ := List.mem_map.1 h
      exact part.slash_not_mem

theorem words_ne_nil : p.words ≠ [] := by
  rw [words]
  split <;> simp_all

theorem toList_partsText :
    (partsText parts).toList = ['/'].intercalate (parts.map Part.chars) := by
  rw [partsText, String.toList_intercalate, List.map_map]
  rfl

theorem toList_toString (p : Path) : p.toString.toList = ['/'].intercalate p.words := by
  obtain ⟨root, parts⟩ := p
  cases parts with
  | nil => cases root <;> rfl
  | cons part parts =>
    rw [Path.toString, if_neg (by simp), String.toList_append, toList_partsText, words,
      if_neg (by simp)]
    -- An absolute path has nothing before its first slash, and a doubled slash nothing between.
    cases root with
    | relative => rfl
    | absolute => simp [Root.text, Root.words]
    | doubled => simp [Root.text, Root.words]

theorem splitOn_toString (p : Path) : p.toString.toList.splitOn '/' = p.words := by
  rw [toList_toString]
  exact List.splitOn_intercalate '/' slash_not_mem_words words_ne_nil

theorem filterMap_words :
    (p.words.filterMap fun word ↦ Part.ofText? (String.ofList word)) = p.parts := by
  have hparts : ((p.parts.map Part.chars).filterMap fun word ↦
      Part.ofText? (String.ofList word)) = p.parts := by
    rw [List.filterMap_map]
    refine (List.filterMap_congr fun part _ ↦ ?_).trans List.filterMap_some
    simp only [Function.comp_apply, Part.chars, String.ofList_toList, Part.ofText?_text]
  obtain ⟨root, parts⟩ := p
  have hroot : (root.words.filterMap fun word ↦ Part.ofText? (String.ofList word)) = [] := by
    cases root <;> decide
  rw [words, List.filterMap_append, hroot, List.nil_append]
  split
  · rename_i h
    dsimp only at h
    subst h
    cases root <;> decide
  · exact hparts

theorem takeWhile_partsText (h : parts ≠ []) (slashes : List Char) (hs : ∀ c ∈ slashes, c = '/') :
    (slashes ++ (partsText parts).toList).takeWhile (· == '/') = slashes := by
  obtain ⟨part, parts, rfl⟩ := List.exists_cons_of_ne_nil h
  obtain ⟨c, rest, hc⟩ := List.exists_cons_of_ne_nil part.chars_ne_nil
  have hcs : c ≠ '/' := fun h ↦ part.slash_not_mem (by simp [hc, h])
  have htext : ∃ rest, (partsText (part :: parts)).toList = c :: rest := by
    rw [toList_partsText, List.map_cons, hc]
    cases parts with
    | nil => exact ⟨rest, by simp⟩
    | cons next parts => exact ⟨_, by rw [List.map_cons, List.intercalate_cons_cons]; rfl⟩
  obtain ⟨rest, htext⟩ := htext
  rw [htext, List.takeWhile_append_of_pos (by simpa using hs), List.takeWhile_cons_of_neg (by simpa),
    List.append_nil]

theorem Root.ofSlashes_text (root : Root) : ofSlashes root.text.toList.length = root := by
  cases root <;> decide

theorem ofSlashes_toString (p : Path) :
    Root.ofSlashes (p.toString.toList.takeWhile (· == '/')).length = p.root := by
  obtain ⟨root, parts⟩ := p
  by_cases h : parts = []
  · subst h
    cases root <;> decide
  · have htext : (Path.toString ⟨root, parts⟩).toList =
        root.text.toList ++ (partsText parts).toList := by
      rw [Path.toString, if_neg (by simp [h]), String.toList_append]
    have hroot : ∀ c ∈ root.text.toList, c = '/' := by cases root <;> simp [Root.text]
    rw [htext, takeWhile_partsText h _ hroot, Root.ofSlashes_text]

theorem ofString_toString (p : Path) : ofString p.toString = p := by
  rw [ofString, ofSlashes_toString, splitOn_toString, filterMap_words]

theorem toString_injective : Function.Injective Path.toString :=
  Function.LeftInverse.injective ofString_toString

end SwiftInventory.Path
