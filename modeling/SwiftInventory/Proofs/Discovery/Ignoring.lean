import Mathlib.Data.List.Infix
import SwiftInventory.Discovery
import SwiftInventory.Proofs.Glob
import SwiftInventory.Proofs.WrittenPath

namespace SwiftInventory

namespace Text

variable {words names before : List (List Char)} {word : List Char}

def slashed (words : List (List Char)) : List Char := words.flatMap ('/' :: ·)

theorem slashed_eq_intercalate (h : words ≠ []) :
    slashed words = '/' :: ['/'].intercalate words := by
  induction words with
  | nil => exact absurd rfl h
  | cons word words ih =>
    cases words with
    | nil => simp [slashed]
    | cons next words =>
      have hrest := ih (by simp)
      rw [List.intercalate_cons_cons, slashed, List.flatMap_cons, ← slashed, hrest]
      simp

theorem slashed_append (words names : List (List Char)) :
    slashed (words ++ names) = slashed words ++ slashed names := List.flatMap_append

theorem splitOn_slashed (h : ∀ word ∈ words, '/' ∉ word) :
    (slashed words).splitOn '/' = [] :: words := by
  by_cases hne : words = []
  · subst hne
    rfl
  · rw [slashed_eq_intercalate hne]
    have hcut := List.splitOn_append_cons_self (a := '/') [] (['/'].intercalate words)
    rw [List.nil_append, List.splitOn_intercalate '/' h hne] at hcut
    exact hcut

theorem slashed_infix_iff (hwords : ∀ word ∈ words, '/' ∉ word)
    (hnames : ∀ word ∈ names, '/' ∉ word) (hne : names ≠ []) :
    slashed names ++ ['/'] <:+: slashed words ↔ names <:+: words.dropLast := by
  constructor
  · rintro ⟨before, after, h⟩
    have hcut := congrArg (List.splitOn '/') h
    rw [splitOn_slashed hwords, slashed_eq_intercalate hne] at hcut
    simp only [List.append_assoc, List.cons_append, List.nil_append] at hcut
    rw [List.splitOn_append_cons_self, List.splitOn_append_cons_self,
      List.splitOn_intercalate '/' hnames hne] at hcut
    -- The cuts before the first slash and after the last one are never empty.
    obtain ⟨cut, cuts, hbefore⟩ := List.exists_cons_of_ne_nil (List.splitOn_ne_nil '/' before)
    rw [hbefore, List.cons_append, List.cons.injEq] at hcut
    rw [← hcut.2, ← List.append_assoc, List.dropLast_append_of_ne_nil (List.splitOn_ne_nil _ _)]
    exact ⟨cuts, _, rfl⟩
  · rintro ⟨before, after, h⟩
    have hlast : words ≠ [] := by
      rintro rfl
      simp [hne] at h
    have hsplit : words = before ++ names ++ (after ++ [words.getLast hlast]) := by
      rw [← List.append_assoc, h, List.dropLast_concat_getLast]
    have hne' : after ++ [words.getLast hlast] ≠ [] := by simp
    rw [hsplit, slashed_append, slashed_append, slashed_eq_intercalate hne']
    exact ⟨slashed before, _, by simp [List.append_assoc]; rfl⟩

theorem infix_append_iff (hbefore : ∀ word ∈ before, word ∉ names) (hne : names ≠ []) :
    names <:+: before ++ words ↔ names <:+: words := by
  induction before with
  | nil => rfl
  | cons word before ih =>
    have ih := ih fun w hw ↦ hbefore w (by simp [hw])
    rw [List.cons_append, List.infix_cons_iff, ih, or_iff_right]
    rintro ⟨rest, h⟩
    obtain ⟨name, names, rfl⟩ := List.exists_cons_of_ne_nil hne
    have hhead : name = word := (List.cons.inj h).1
    exact hbefore word (by simp) (by simp [hhead])

end Text

/-- The folders of the default patterns, by the names that lead into them. -/
def ignoredFolders : List (List String) :=
  [[".build"], [".git"], [".swiftpm"], ["Pods"], ["Carthage", "Checkouts"], ["DerivedData"],
    ["node_modules"]]

namespace Path

variable {p : Path} {names : List String}

def texts (p : Path) : List String := p.parts.map (·.text)

def LiesInIgnored (p : Path) : Prop := ∃ names ∈ ignoredFolders, names <:+: p.texts.dropLast

instance : DecidablePred LiesInIgnored := fun _ ↦
  inferInstanceAs (Decidable (∃ names ∈ ignoredFolders, names <:+: _))

def folderPattern (names : List String) : List Char :=
  '*' :: (Text.slashed (names.map String.toList) ++ ['/']) ++ ['*']

theorem defaultIgnorePatterns_eq :
    defaultIgnorePatterns.map String.toList = ignoredFolders.map folderPattern := by decide

theorem isPlain_of_mem (h : names ∈ ignoredFolders) :
    (Text.slashed (names.map String.toList) ++ ['/']).all Glob.isPlain = true := by
  have hall : (ignoredFolders.all fun names ↦
    (Text.slashed (names.map String.toList) ++ ['/']).all Glob.isPlain) = true := by decide
  exact List.all_eq_true.1 hall names h

theorem ne_nil_of_mem (h : names ∈ ignoredFolders) : names ≠ [] := by
  have hall : (ignoredFolders.all fun names ↦ names != []) = true := by decide
  simpa using List.all_eq_true.1 hall names h

theorem name_of_mem (h : names ∈ ignoredFolders) {name : String} (hname : name ∈ names) :
    name.toList ≠ [] ∧ '/' ∉ name.toList := by
  have hall : (ignoredFolders.all fun names ↦ names.all fun name ↦
    name.toList != [] && !name.toList.contains '/') = true := by decide
  have h := List.all_eq_true.1 (List.all_eq_true.1 hall names h) name hname
  simpa using h

theorem dropLast_words :
    ∃ before, (∀ word ∈ before, word = []) ∧
      p.words.dropLast = before ++ p.texts.dropLast.map String.toList := by
  refine ⟨p.root.words, fun word hword ↦ Root.eq_nil_of_mem_words hword, ?_⟩
  rw [words, texts]
  by_cases h : p.parts = []
  · rw [if_pos h, List.dropLast_concat, h]
    exact (List.append_nil _).symm
  · have hne : p.parts.map Part.chars ≠ [] := by simpa using h
    rw [if_neg h, List.dropLast_append_of_ne_nil hne, ← List.map_dropLast, ← List.map_dropLast,
      List.map_map]
    rfl

theorem slashed_words : '/' :: p.toString.toList = Text.slashed p.words := by
  rw [toList_toString, Text.slashed_eq_intercalate words_ne_nil]

theorem not_holdsNull (h : ∀ word ∈ p.words, '\x00' ∉ word) : p.holdsNull = false := by
  rw [holdsNull, ← Bool.not_eq_true, List.contains_iff_mem]
  intro hnull
  have hmem : '\x00' ∈ Text.slashed p.words := by
    rw [← slashed_words]
    exact List.mem_cons_of_mem _ hnull
  obtain ⟨word, hword, hmem⟩ := List.mem_flatMap.1 hmem
  rcases List.mem_cons.1 hmem with hmem | hmem
  · exact absurd hmem (by decide)
  · exact h word hword hmem

theorem infix_words (h : names ∈ ignoredFolders) :
    Text.slashed (names.map String.toList) ++ ['/'] <:+: '/' :: p.toString.toList ↔
      names <:+: p.texts.dropLast := by
  have hslash : ∀ word ∈ names.map String.toList, '/' ∉ word := by
    intro word hword
    obtain ⟨name, hname, rfl⟩ := List.mem_map.1 hword
    exact (name_of_mem h hname).2
  have hne : names.map String.toList ≠ [] := by simpa using ne_nil_of_mem h
  obtain ⟨before, hbefore, hwords⟩ := dropLast_words (p := p)
  have hempty : ∀ word ∈ before, word ∉ names.map String.toList := by
    intro word hword hmem
    obtain ⟨name, hname, rfl⟩ := List.mem_map.1 hmem
    exact (name_of_mem h hname).1 (hbefore _ hword)
  rw [slashed_words, Text.slashed_infix_iff slash_not_mem_words hslash hne, hwords,
    Text.infix_append_iff hempty hne]
  refine ⟨fun h ↦ ?_, fun h ↦ h.map _⟩
  have htexts := h.map String.ofList
  simpa [Function.comp_def] using htexts

theorem globMatches_folderPattern (h : names ∈ ignoredFolders) {s : List Char} :
    globMatches (folderPattern names) s = true ↔
      Text.slashed (names.map String.toList) ++ ['/'] <:+: s :=
  Glob.globMatches_between_stars (isPlain_of_mem h)

/-- No name holds a slash, so the default patterns match no name alone. -/
theorem not_globMatches_name (h : names ∈ ignoredFolders) :
    ¬ globMatches (folderPattern names) p.name.toList = true := by
  rw [globMatches_folderPattern h]
  exact fun hin ↦ p.slash_not_mem_name (hin.subset (by simp))

/-- The default patterns tell the files of ignored folders, and nothing else. -/
theorem isIgnored_nil_iff : p.isIgnored [] = true ↔ p.LiesInIgnored := by
  have hpatterns : p.isIgnored [] = (ignoredFolders.map folderPattern).any fun pattern ↦
      globMatches pattern ('/' :: p.toString.toList) || globMatches pattern p.name.toList := by
    rw [← defaultIgnorePatterns_eq, List.any_map, isIgnored, List.append_nil]
    rfl
  rw [hpatterns, List.any_map, List.any_eq_true, LiesInIgnored]
  refine exists_congr fun names ↦ and_congr_right fun h ↦ ?_
  rw [Function.comp_apply, Bool.or_eq_true, or_iff_left (not_globMatches_name h),
    globMatches_folderPattern h, infix_words h]

end Path

end SwiftInventory
