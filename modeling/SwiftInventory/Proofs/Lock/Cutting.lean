import SwiftInventory.Proofs.Lock.Acceptance

namespace SwiftInventory.Lock

open Text

variable {key : String} {line value name version : Line} {before lines rest : List Line}

/-- What a field leaves of the lines in front of others does not depend on those others. -/
theorem nextField?_append (h : nextField? key (before ++ lines) = some (value, rest))
    (hlines : lines <:+ rest) :
    ∃ left, left <:+ before ∧ rest = left ++ lines ∧
      ∀ lines', nextField? key (before ++ lines') = some (value, left ++ lines') := by
  induction before with
  | nil =>
    have hlt := nextField?_length h
    have hle := hlines.length_le
    rw [List.nil_append] at hlt
    omega
  | cons line before ih =>
    by_cases hb : line.all isBlank = true
    · rw [List.cons_append, nextField?_cons_of_blank hb] at h
      obtain ⟨left, hleft, hrest, hread⟩ := ih h
      refine ⟨left, hleft.trans (List.suffix_cons _ _), hrest, fun lines' ↦ ?_⟩
      rw [List.cons_append, nextField?_cons_of_blank hb, hread]
    · rw [List.cons_append, nextField?_cons_of_not_blank hb] at h
      obtain ⟨v, hv, he⟩ := Option.map_eq_some_iff.1 h
      obtain ⟨rfl, rfl⟩ := Prod.mk.inj he
      refine ⟨before, List.suffix_cons _ _, rfl, fun lines' ↦ ?_⟩
      rw [List.cons_append, nextField?_cons_of_not_blank hb, hv, Option.map_some]

theorem nextInnerField?_append (h : nextInnerField? key (before ++ lines) = some (value, rest))
    (hlines : lines <:+ rest) :
    ∃ left, left <:+ before ∧ rest = left ++ lines ∧
      ∀ lines' ≠ [], nextInnerField? key (before ++ lines') = some (value, left ++ lines') := by
  obtain ⟨hnext, hcomma, -⟩ := nextInnerField?_eq_some.1 h
  obtain ⟨left, hleft, hrest, hread⟩ := nextField?_append hnext hlines
  refine ⟨left, hleft, hrest, fun lines' hne ↦ ?_⟩
  exact nextInnerField?_eq_some.2 ⟨hread lines', hcomma, by simp [hne]⟩

theorem stateFields?_append (h : stateFields? (before ++ lines) = some (version, rest))
    (hlines : lines <:+ rest) :
    ∃ left, left <:+ before ∧ rest = left ++ lines ∧
      ∀ lines' ≠ [], stateFields? (before ++ lines') = some (version, left ++ lines') := by
  obtain ⟨_, lines₁, _, lines₂, hb, hr, hv⟩ := stateFields?_eq_some.1 h
  have h₂ : lines <:+ lines₂ := hlines.trans (nextField?_suffix hv)
  have h₁ : lines <:+ lines₁ := h₂.trans (nextInnerField?_suffix hr)
  obtain ⟨left₁, hleft₁, rfl, hbranch⟩ := nextInnerField?_append hb h₁
  obtain ⟨left₂, hleft₂, rfl, hrevision⟩ := nextInnerField?_append hr h₂
  obtain ⟨left, hleft, rfl, hversion⟩ := nextField?_append hv hlines
  refine ⟨left, hleft.trans (hleft₂.trans hleft₁), rfl, fun lines' hne ↦ ?_⟩
  exact stateFields?_eq_some.2
    ⟨_, _, _, _, hbranch lines' hne, hrevision lines' hne, hversion lines'⟩

theorem or_stateFields?_eq_some {found : Line × List Line} :
    (stateFields? lines).or (stateFields? (line :: lines)) = some found ↔
      stateFields? lines = some found ∨ stateFields? (line :: lines) = some found := by
  rw [Option.or_eq_some_iff]
  constructor
  · rintro (h | ⟨-, h⟩)
    · exact .inl h
    · exact .inr h
  · rintro (h | h)
    · exact .inl h
    · cases hnext : stateFields? lines with
      | none => exact .inr ⟨rfl, h⟩
      | some found' =>
        obtain ⟨hversion, hrest⟩ := stateFields?_unique h hnext
        exact .inl (congrArg some (Prod.ext hversion.symm hrest.symm))

theorem or_stateFields?_append {skipped : Line}
    (h : (stateFields? (before ++ lines)).or (stateFields? (skipped :: before ++ lines)) =
      some (version, rest)) (hlines : lines <:+ rest) :
    ∃ left, left <:+ skipped :: before ∧ rest = left ++ lines ∧ ∀ lines' ≠ [],
      (stateFields? (before ++ lines')).or (stateFields? (skipped :: before ++ lines')) =
        some (version, left ++ lines') := by
  have hstate := or_stateFields?_eq_some.1 h
  simp only [List.cons_append, or_stateFields?_eq_some]
  rcases hstate with h | h
  · obtain ⟨left, hleft, hrest, hread⟩ := stateFields?_append h hlines
    exact ⟨left, hleft.trans (List.suffix_cons _ _), hrest,
      fun lines' hne ↦ .inl (hread lines' hne)⟩
  · rw [← List.cons_append] at h
    obtain ⟨left, hleft, hrest, hread⟩ := stateFields?_append h hlines
    exact ⟨left, hleft, hrest, fun lines' hne ↦ .inr (hread lines' hne)⟩

theorem block?_append (h : block? line (before ++ lines) = some (name, version, rest))
    (hlines : lines <:+ rest) :
    ∃ left, left <:+ before ∧ rest = left ++ lines ∧
      ∀ lines' ≠ [], block? line (before ++ lines') = some (name, version, left ++ lines') := by
  obtain ⟨value, url, lines₁, hp, hcomma, hname, hu, hs⟩ := block?_eq_some.1 h
  have hlines₁ : lines <:+ lines₁ := hlines.trans (or_stateFields?_suffix hs)
  obtain ⟨left₁, hleft₁, rfl, hurl⟩ := nextInnerField?_append hu hlines₁
  cases left₁ with
  | nil =>
    -- The state would have to be read from the lines that it leaves.
    exact absurd hlines.length_le (Nat.not_le.2 (or_stateFields?_length hs))
  | cons skipped left₁ =>
    obtain ⟨left, hleft, rfl, hstate⟩ := or_stateFields?_append hs hlines
    refine ⟨left, hleft.trans hleft₁, rfl, fun lines' hne ↦ ?_⟩
    exact block?_eq_some.2
      ⟨value, url, _, hp, hcomma, hname, hurl lines' hne, hstate lines' hne⟩

theorem mem_blockStarts {start : Line × List Line} :
    start ∈ blockStarts lines ↔
      start.1 :: start.2 <:+ lines ∧ (block? start.1 start.2).isSome = true := by
  induction lines with
  | nil => simp [blockStarts]
  | cons line lines ih =>
    rw [blockStarts, List.suffix_cons_iff]
    split
    · rename_i hb
      rw [List.mem_cons, ih]
      constructor
      · rintro (rfl | ⟨h, hstart⟩)
        · exact ⟨.inl rfl, hb⟩
        · exact ⟨.inr h, hstart⟩
      · rintro ⟨h | h, hstart⟩
        · obtain ⟨h₁, h₂⟩ := List.cons.inj h
          exact .inl (Prod.ext h₁ h₂)
        · exact .inr ⟨h, hstart⟩
    · rename_i hb
      rw [ih]
      refine and_congr_left fun hstart ↦ (or_iff_right fun h ↦ ?_).symm
      obtain ⟨rfl, rfl⟩ := List.cons.inj h
      exact hb hstart

def HasBlock : List Line → Prop
  | [] => False
  | line :: lines => (block? line lines).isSome = true

theorem HasBlock.suffix (hlines : HasBlock lines)
    (h : block? line (before ++ lines) = some (name, version, rest)) : lines <:+ rest := by
  cases lines with
  | nil => exact hlines.elim
  | cons line' lines =>
    have hmem : (line', lines) ∈ blockStarts (before ++ line' :: lines) :=
      mem_blockStarts.2 ⟨List.suffix_append _ _, hlines⟩
    rw [blockStarts_of_block? h] at hmem
    exact (mem_blockStarts.1 hmem).1

theorem blank_suffix_of_nextField? (h : nextField? key (before ++ [[]]) = some (value, rest)) :
    [[]] <:+ rest := by
  induction before with
  | nil => cases h
  | cons line before ih =>
    by_cases hb : line.all isBlank = true
    · rw [List.cons_append, nextField?_cons_of_blank hb] at h
      exact ih h
    · rw [List.cons_append, nextField?_cons_of_not_blank hb] at h
      obtain ⟨v, hv, he⟩ := Option.map_eq_some_iff.1 h
      rw [← (Prod.mk.inj he).2]
      exact List.suffix_append _ _

theorem blank_suffix_of_stateFields? (h : stateFields? (before ++ [[]]) = some (version, rest)) :
    [[]] <:+ rest := by
  obtain ⟨_, lines₁, _, lines₂, hb, hr, hv⟩ := stateFields?_eq_some.1 h
  obtain ⟨left₁, rfl⟩ := blank_suffix_of_nextField? (nextInnerField?_eq_some.1 hb).1
  obtain ⟨left₂, rfl⟩ := blank_suffix_of_nextField? (nextInnerField?_eq_some.1 hr).1
  exact blank_suffix_of_nextField? hv

theorem blank_suffix_of_block? (h : block? line (before ++ [[]]) = some (name, version, rest)) :
    [[]] <:+ rest := by
  obtain ⟨_, _, lines₁, -, -, -, hu, hs⟩ := block?_eq_some.1 h
  obtain ⟨left, rfl⟩ := blank_suffix_of_nextField? (nextInnerField?_eq_some.1 hu).1
  cases left with
  | nil =>
    have hstate : stateFields? [[]] = none := rfl
    have hstate' : stateFields? ([] : List Line) = none := rfl
    simp [hstate, hstate'] at hs
  | cons line' left =>
    rw [List.cons_append, List.drop_one, List.tail_cons, or_stateFields?_eq_some,
      ← List.cons_append] at hs
    rcases hs with hs | hs <;> exact blank_suffix_of_stateFields? hs

/-- The lines before a block are read as if a blank line stood in its place. -/
theorem pinsOfLines_append (before : List Line) (hlines : HasBlock lines) :
    pinsOfLines (before ++ lines) = pinsOfLines (before ++ [[]]) ++ pinsOfLines lines := by
  -- Behind a block the search goes on with what it leaves, so the length carries the induction.
  induction hn : before.length using Nat.strong_induction_on generalizing before with
  | _ n ih =>
    have hne : lines ≠ [] := by
      rintro rfl
      exact hlines
    cases before with
    | nil => rfl
    | cons line before =>
      rw [List.length_cons] at hn
      rw [List.cons_append, List.cons_append]
      cases hb : block? line (before ++ lines) with
      | some found =>
        obtain ⟨name, version, rest⟩ := found
        obtain ⟨left, hleft, rfl, hread⟩ := block?_append hb (hlines.suffix hb)
        have hle := hleft.length_le
        rw [pinsOfLines_cons_of_some hb, pinsOfLines_cons_of_some (hread [[]] (by simp)),
          ih left.length (by omega) left rfl, List.cons_append]
      | none =>
        have hblank : block? line (before ++ [[]]) = none := by
          by_contra hsome
          obtain ⟨⟨name, version, rest⟩, hsome⟩ := Option.ne_none_iff_exists'.1 hsome
          obtain ⟨left, -, rfl, hread⟩ := block?_append hsome (blank_suffix_of_block? hsome)
          rw [hread lines hne] at hb
          cases hb
        rw [pinsOfLines_cons_of_none hb, pinsOfLines_cons_of_none hblank,
          ih before.length (by omega) before rfl]

def WholeLines (s : List Char) : Prop := s = [] ∨ ∃ front, s = front ++ ['\n']

theorem splitOn_text {line : Line} (h : OnOneLine (line :: lines)) :
    (line ++ linesText lines).splitOn '\n' = line :: lines := by
  have htext : line ++ linesText lines = ['\n'].intercalate (line :: lines) := by
    induction lines generalizing line with
    | nil => simp [linesText]
    | cons line' lines ih =>
      rw [linesText_cons, List.intercalate_cons_cons, ← ih (h.of_suffix (List.suffix_cons _ _)),
        List.append_assoc, List.singleton_append]
  rw [htext, List.splitOn_intercalate '\n' h (by simp)]

theorem pins_text {line : Line} (h : OnOneLine (line :: lines)) :
    pins (line ++ linesText lines) = pinsOfLines (line :: lines) := by
  rw [pins_eq, splitOn_text h]

theorem pins_drop_linesText (h : OnOneLine lines) :
    pins ((linesText lines).drop 1) = pinsOfLines lines := by
  cases lines with
  | nil => rfl
  | cons line lines => rw [linesText_cons, List.drop_one, List.tail_cons, pins_text h]

/-- A block at the start of a line gives its pin; the pins before it are those of the text before
it, and the pins behind it those of the text behind the end of its last line. -/
theorem pins_append_block {before start name value rest : List Char} (hbefore : WholeLines before)
    (h : BlockAt start name value rest) :
    pins (before ++ start) = pins before ++ .ofValues name value :: pins (rest.drop 1) := by
  obtain ⟨line, lines, -, rfl, hl⟩ := exists_lines start
  obtain ⟨lines', hb, rfl⟩ := (blockAt_iff hl).1 h
  have hblock : HasBlock (line :: lines) := Option.isSome_iff_exists.2 ⟨_, hb⟩
  have hlines' : OnOneLine lines' := (hl.of_suffix (List.suffix_cons _ _)).of_suffix
    (block?_suffix hb)
  have hstart : pinsOfLines (line :: lines) =
      .ofValues name value :: pins ((linesText lines').drop 1) := by
    rw [pinsOfLines_cons_of_some hb, pins_drop_linesText hlines']
  rcases hbefore with rfl | ⟨front, rfl⟩
  · have hnil : pins [] = [] := rfl
    rw [List.nil_append, pins_text hl, hstart, hnil, List.nil_append]
  · have hfront : pins (front ++ ['\n']) = pinsOfLines (front.splitOn '\n' ++ [[]]) := by
      rw [pins_eq, List.splitOn_append_cons_self]
      rfl
    rw [hfront, pins_eq, List.append_assoc, List.singleton_append, List.splitOn_append_cons_self,
      splitOn_text hl, pinsOfLines_append _ hblock, hstart]

def IsValue (value : List Char) : Prop := '\n' ∉ value ∧ ∀ c ∈ value.head?, isIndent c = false

theorem InnerField.cut {s rest : List Char} (h : InnerField key s rest) :
    ∃ front, s = front ++ rest ∧ ∀ rest', InnerField key (front ++ rest') rest' := by
  obtain ⟨blanks, value, hblanks, hvalue, rfl⟩ := h
  refine ⟨blanks ++ (keyText key ++ (value ++ [',', '\n'])), by simp, fun rest' ↦ ?_⟩
  exact ⟨blanks, value, hblanks, hvalue, by simp⟩

theorem PackageField.cut {s name rest : List Char} (h : PackageField s name rest) :
    ∃ front, s = front ++ rest ∧ ∀ rest', PackageField (front ++ rest') name rest' := by
  obtain ⟨indent, indent', hi, hi', hname, hhead, rfl⟩ := h
  refine ⟨indent ++ (keyText "package" ++ (indent' ++ (name ++ [',', '\n']))), by simp,
    fun rest' ↦ ?_⟩
  exact ⟨indent, indent', hi, hi', hname, hhead, by simp⟩

theorem VersionField.cut {s version rest : List Char} (h : VersionField s version rest) :
    ∃ front, s = front ++ (version ++ rest) ∧
      ∀ version', IsValue version' → VersionField (front ++ (version' ++ rest)) version' rest := by
  obtain ⟨blanks, indent, hblanks, hi, -, -, hrest, rfl⟩ := h
  refine ⟨blanks ++ (keyText "version" ++ indent), by simp, fun version' hversion' ↦ ?_⟩
  exact ⟨blanks, indent, hblanks, hi, hversion'.1, hversion'.2, hrest, by simp⟩

/-- Any version can stand in the place of the one that a block has. -/
theorem BlockAt.cut {start name value rest : List Char} (h : BlockAt start name value rest) :
    ∃ front, start = front ++ (value ++ rest) ∧
      ∀ value', IsValue value' → BlockAt (front ++ (value' ++ rest)) name value' rest := by
  obtain ⟨s₁, s₂, s₃, hpackage, hurl, hskip, s₄, s₅, hbranch, hrevision, hversion⟩ := h
  obtain ⟨f₁, rfl, cutPackage⟩ := hpackage.cut
  obtain ⟨f₂, rfl, cutUrl⟩ := hurl.cut
  obtain ⟨f₃, rfl, cutSkip⟩ : ∃ f₃, s₂ = f₃ ++ s₃ ∧
      ∀ s, s = f₃ ++ s ∨ ∃ line, '\n' ∉ line ∧ f₃ ++ s = line ++ '\n' :: s := by
    rcases hskip with rfl | ⟨line, hline, rfl⟩
    · exact ⟨[], rfl, fun s ↦ .inl rfl⟩
    · exact ⟨line ++ ['\n'], by simp, fun s ↦ .inr ⟨line, hline, by simp⟩⟩
  obtain ⟨f₄, rfl, cutBranch⟩ := hbranch.cut
  obtain ⟨f₅, rfl, cutRevision⟩ := hrevision.cut
  obtain ⟨f₆, rfl, cutVersion⟩ := hversion.cut
  refine ⟨f₁ ++ (f₂ ++ (f₃ ++ (f₄ ++ (f₅ ++ f₆)))), by simp only [List.append_assoc],
    fun value' hvalue' ↦ ?_⟩
  simp only [List.append_assoc]
  exact ⟨_, _, _, cutPackage _, cutUrl _, cutSkip _, _, _, cutBranch _, cutRevision _,
    cutVersion value' hvalue'⟩

/-- With another version in one block, the pin of that block has the other version, and all other
pins are the same. -/
theorem pins_in_place {before start name value rest : List Char} (hbefore : WholeLines before)
    (h : BlockAt start name value rest) :
    ∃ front, start = front ++ (value ++ rest) ∧ ∀ value', IsValue value' →
      pins (before ++ (front ++ (value' ++ rest))) =
        pins before ++ .ofValues name value' :: pins (rest.drop 1) := by
  obtain ⟨front, hstart, hreplace⟩ := h.cut
  exact ⟨front, hstart, fun value' hvalue' ↦ pins_append_block hbefore (hreplace value' hvalue')⟩

end SwiftInventory.Lock
