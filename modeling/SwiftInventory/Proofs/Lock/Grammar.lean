import SwiftInventory.Proofs.Lock.Starts

namespace SwiftInventory.Lock

open Text

/-- Blanks, line ends among them, and then a line with the key that ends with a comma. -/
def InnerField (key : String) (s rest : List Char) : Prop :=
  ∃ blanks value, (∀ c ∈ blanks, isBlank c = true) ∧ '\n' ∉ value ∧
    s = blanks ++ (keyText key ++ (value ++ ',' :: '\n' :: rest))

/-- The value runs from behind the spaces and tabs up to the last comma of the line. -/
def PackageField (s name rest : List Char) : Prop :=
  ∃ indent indent', (∀ c ∈ indent, isIndent c = true) ∧ (∀ c ∈ indent', isIndent c = true) ∧
    '\n' ∉ name ∧ (∀ c ∈ name.head?, isIndent c = false) ∧
    s = indent ++ (keyText "package" ++ (indent' ++ (name ++ ',' :: '\n' :: rest)))

/-- The value is all that is left of the line, which may be the last one. -/
def VersionField (s version rest : List Char) : Prop :=
  ∃ blanks indent, (∀ c ∈ blanks, isBlank c = true) ∧ (∀ c ∈ indent, isIndent c = true) ∧
    '\n' ∉ version ∧ (∀ c ∈ version.head?, isIndent c = false) ∧
    (rest = [] ∨ ∃ after, rest = '\n' :: after) ∧
    s = blanks ++ (keyText "version" ++ (indent ++ (version ++ rest)))

def StateFields (s version rest : List Char) : Prop :=
  ∃ s₁ s₂, InnerField "branch" s s₁ ∧ InnerField "revision" s₁ s₂ ∧ VersionField s₂ version rest

/-- A block at the very start of a text: the values it names and the text after it. Any one line
may stand after the repository. -/
def BlockAt (s name version rest : List Char) : Prop :=
  ∃ s₁ s₂ s₃, PackageField s name s₁ ∧ InnerField "repositoryURL" s₁ s₂ ∧
    (s₃ = s₂ ∨ ∃ line, '\n' ∉ line ∧ s₂ = line ++ '\n' :: s₃) ∧ StateFields s₃ version rest

def StartsBlock (s : List Char) : Prop := ∃ name version rest, BlockAt s name version rest

def laterLines : List Char → List (List Char)
  | [] => []
  | c :: s => if c = '\n' then s :: laterLines s else laterLines s

/-- The text from each of its lines on, in the order of the lines. -/
def fromEachLine (s : List Char) : List (List Char) := s :: laterLines s

def linesText (lines : List Line) : List Char := lines.flatMap ('\n' :: ·)

def OnOneLine (lines : List Line) : Prop := ∀ line ∈ lines, '\n' ∉ line

variable {key : String} {line value name version name' version' : Line}
  {s rest rest' : List Char} {lines lines' : List Line}

theorem linesText_cons : linesText (line :: lines) = '\n' :: (line ++ linesText lines) := by
  simp [linesText]

theorem exists_lines (s : List Char) :
    ∃ line lines, s.splitOn '\n' = line :: lines ∧ s = line ++ linesText lines ∧
      OnOneLine (line :: lines) := by
  induction s with
  | nil => exact ⟨[], [], rfl, rfl, by simp [OnOneLine]⟩
  | cons c s ih =>
    obtain ⟨line, lines, hs, he, hl⟩ := ih
    have hsplit : (c :: s).splitOn '\n' =
        if c == '\n' then [] :: s.splitOn '\n' else (s.splitOn '\n').modifyHead (c :: ·) :=
      List.splitOnP_cons_eq_if_modifyHead c s
    by_cases hc : c = '\n'
    · rw [hc, beq_self_eq_true, if_pos rfl, hs] at hsplit
      refine ⟨[], line :: lines, hc ▸ hsplit, by simp [hc, he, linesText_cons], ?_⟩
      intro l hmem
      rcases List.mem_cons.1 hmem with rfl | hmem
      · simp
      · exact hl l hmem
    · refine ⟨c :: line, lines, by simp [hsplit, hc, hs], by simp [he], ?_⟩
      intro l hmem
      rcases List.mem_cons.1 hmem with rfl | hmem
      · simpa [eq_comm, hc] using hl line (by simp)
      · exact hl l (by simp [hmem])

theorem append_lineEnd_inj {s' : List Char} (hv : '\n' ∉ value) (hl : '\n' ∉ line)
    (h : value ++ '\n' :: s' = line ++ linesText lines) :
    value = line ∧ ∃ line' lines', lines = line' :: lines' ∧ s' = line' ++ linesText lines' := by
  cases lines with
  | nil =>
    rw [linesText, List.flatMap_nil, List.append_nil] at h
    exact absurd (h ▸ by simp) hl
  | cons line' lines' =>
    rw [linesText_cons] at h
    obtain ⟨rfl, rfl⟩ := append_cons_inj hv hl h
    exact ⟨rfl, line', lines', rfl, rfl⟩

theorem trimStart_text (line : Line) (lines : List Line) :
    trimStart (line ++ linesText lines) =
      match (line :: lines).dropWhile (·.all isBlank) with
      | [] => []
      | line' :: lines' => trimStart line' ++ linesText lines' := by
  induction lines generalizing line with
  | nil =>
    by_cases hb : line.all isBlank = true
    · have hline : line.dropWhile isBlank = [] :=
        List.dropWhile_eq_nil_iff.2 (List.all_eq_true.1 hb)
      simp [hb, linesText, trimStart, hline]
    · simp [hb, linesText]
  | cons line' lines ih =>
    by_cases hb : line.all isBlank = true
    · have hnl : isBlank '\n' = true := rfl
      have hline := List.all_eq_true.1 hb
      rw [trimStart, List.dropWhile_append_of_pos hline, linesText_cons,
        List.dropWhile_cons_of_pos hnl, ← trimStart, ih]
      simp [hb]
    · have hne : line.dropWhile isBlank ≠ [] := by
        simpa [List.dropWhile_eq_nil_iff] using hb
      simp [hb, trimStart, List.dropWhile_append, hne]

theorem OnOneLine.of_suffix (h : OnOneLine lines) (hs : lines' <:+ lines) : OnOneLine lines' :=
  fun line hline ↦ h line (hs.subset hline)

theorem trimStart_field {blanks t : List Char} (hb : ∀ c ∈ blanks, isBlank c = true) :
    trimStart (blanks ++ (keyText key ++ t)) = keyText key ++ t := by
  rw [trimStart, List.dropWhile_append_of_pos hb, ← trimStart, trimStart_keyText]

theorem nextField?_eq_some :
    nextField? key lines = some (value, lines') ↔
      ∃ line v, lines.dropWhile (·.all isBlank) = line :: lines' ∧
        trimStart line = keyText key ++ v ∧ value = v.dropWhile isIndent := by
  rw [nextField?]
  split
  · rename_i hl
    simp [hl]
  · rename_i line rest hl
    simp only [hl, Option.map_eq_some_iff, Prod.mk.injEq, List.cons.injEq]
    constructor
    · rintro ⟨_, hv, rfl, rfl⟩
      obtain ⟨v, he, rfl⟩ := fieldAt?_eq_some.1 hv
      exact ⟨line, v, ⟨rfl, rfl⟩, he, rfl⟩
    · rintro ⟨_, v, ⟨rfl, rfl⟩, he, rfl⟩
      exact ⟨_, fieldAt?_eq_some.2 ⟨v, he, rfl⟩, rfl, rfl⟩

theorem nextField?_suffix (h : nextField? key lines = some (value, lines')) : lines' <:+ lines := by
  obtain ⟨line, _, hl, -, -⟩ := nextField?_eq_some.1 h
  have hd := List.dropWhile_suffix (·.all isBlank) (l := lines)
  rw [hl] at hd
  exact (List.suffix_cons line lines').trans hd

theorem append_eq_text {a t : List Char} (ha : '\n' ∉ a) (h : a ++ t = line ++ linesText lines) :
    ∃ v, line = a ++ v ∧ t = v ++ linesText lines := by
  rcases List.append_eq_append_iff.1 h with ⟨v, rfl, ht⟩ | ⟨v, rfl, ht⟩
  · exact ⟨v, rfl, ht⟩
  · cases lines with
    | nil =>
      obtain ⟨rfl, rfl⟩ : v = [] ∧ t = [] := by simpa [linesText] using ht.symm
      exact ⟨[], by simp, rfl⟩
    | cons line' lines =>
      cases v with
      | nil => exact ⟨[], by simp, by simpa using ht.symm⟩
      | cons c v =>
        rw [linesText_cons] at ht
        obtain ⟨rfl, -⟩ := List.cons.inj ht
        simp at ha

theorem not_mem_keyText (hk : '\n' ∉ key.toList) : '\n' ∉ keyText key := by
  simp [keyText_eq, hk]

/-- The line of a field, seen in the text and seen among the lines. -/
theorem field_iff (hk : '\n' ∉ key.toList) {t : List Char} :
    (∃ blanks, (∀ c ∈ blanks, isBlank c = true) ∧
        line ++ linesText lines = blanks ++ (keyText key ++ t)) ↔
      ∃ line' lines' v, (line :: lines).dropWhile (·.all isBlank) = line' :: lines' ∧
        trimStart line' = keyText key ++ v ∧ t = v ++ linesText lines' := by
  constructor
  · rintro ⟨blanks, hb, he⟩
    have ht := trimStart_text line lines
    rw [he, trimStart_field hb] at ht
    split at ht
    · simp [keyText_eq] at ht
    · rename_i line' lines' hl
      obtain ⟨v, hv, hrest⟩ := append_eq_text (not_mem_keyText hk) ht
      exact ⟨line', lines', v, hl, hv, hrest⟩
  · rintro ⟨line', lines', v, hl, hv, rfl⟩
    refine ⟨(line ++ linesText lines).takeWhile isBlank, ?_, ?_⟩
    · exact fun c hc ↦ List.mem_takeWhile_imp hc
    · have ht := trimStart_text line lines
      rw [hl] at ht
      simp only [hv, List.append_assoc] at ht
      rw [← ht, trimStart, List.takeWhile_append_dropWhile]

theorem on_one_line_of_field (h : OnOneLine (line :: lines)) {line' : Line} {v : List Char}
    (hl : (line :: lines).dropWhile (·.all isBlank) = line' :: lines')
    (hv : trimStart line' = keyText key ++ v) : '\n' ∉ v := by
  have hd := List.dropWhile_suffix (·.all isBlank) (l := line :: lines)
  have hline : '\n' ∉ line' := h line' (hd.subset (by simp [hl]))
  intro hmem
  have hmem' : '\n' ∈ trimStart line' := by simp [hv, hmem]
  exact hline ((List.dropWhile_suffix isBlank).subset hmem')

theorem endsWithComma_iff : endsWithComma value = true ↔ ∃ v, value = v ++ [','] := by
  rw [endsWithComma, beq_iff_eq, List.getLast?_eq_some_iff]

theorem endsWithComma_of_dropWhile {v : List Char}
    (h : endsWithComma (v.dropWhile isIndent) = true) :
    ∃ u, v = u ++ [','] := by
  obtain ⟨u, hu⟩ := endsWithComma_iff.1 h
  refine ⟨v.takeWhile isIndent ++ u, ?_⟩
  rw [List.append_assoc, ← hu, List.takeWhile_append_dropWhile]

theorem innerField_iff (hk : '\n' ∉ key.toList) (h : OnOneLine (line :: lines)) :
    InnerField key (line ++ linesText lines) rest ↔
      ∃ value line' lines', nextInnerField? key (line :: lines) = some (value, line' :: lines') ∧
        rest = line' ++ linesText lines' := by
  constructor
  · rintro ⟨blanks, value, hb, hv, he⟩
    obtain ⟨line₁, lines₁, v, hl, hkey, ht⟩ := (field_iff hk).1 ⟨blanks, hb, he⟩
    have hcomma : (value ++ [',']) ++ '\n' :: rest = v ++ linesText lines₁ := by simpa using ht
    obtain ⟨rfl, line', lines', rfl, rfl⟩ :=
      append_lineEnd_inj (by simpa using hv) (on_one_line_of_field h hl hkey) hcomma
    have hn : nextField? key (line :: lines) =
        some ((value ++ [',']).dropWhile isIndent, line' :: lines') :=
      nextField?_eq_some.2 ⟨line₁, _, hl, hkey, rfl⟩
    have hi := nextInnerField?_eq_some.2 ⟨hn, endsWithComma_dropWhile, by simp⟩
    exact ⟨_, line', lines', hi, rfl⟩
  · rintro ⟨value, line', lines', hn, rfl⟩
    obtain ⟨hn, hcomma, -⟩ := nextInnerField?_eq_some.1 hn
    obtain ⟨line₁, v, hl, hkey, rfl⟩ := nextField?_eq_some.1 hn
    obtain ⟨u, rfl⟩ := endsWithComma_of_dropWhile hcomma
    have hu : '\n' ∉ u := fun hmem ↦ on_one_line_of_field h hl hkey (by simp [hmem])
    obtain ⟨blanks, hb, he⟩ := (field_iff hk).2 ⟨line₁, _, _, hl, hkey, rfl⟩
    exact ⟨blanks, u, hb, hu, by simp [he, linesText_cons]⟩

theorem dropWhile_isIndent_text (line : Line) (lines : List Line) :
    (line ++ linesText lines).dropWhile isIndent = line.dropWhile isIndent ++ linesText lines := by
  have hnl : isIndent '\n' = false := rfl
  rw [List.dropWhile_append]
  split
  · rename_i he
    rw [List.isEmpty_iff.1 he, List.nil_append]
    cases lines with
    | nil => rfl
    | cons line' lines => rw [linesText_cons, List.dropWhile_cons_of_neg (by simp [hnl])]
  · rfl

theorem packageField_iff (h : OnOneLine (line :: lines)) :
    PackageField (line ++ linesText lines) name rest ↔
      ∃ value line' lines', fieldAt? "package" (line.dropWhile isIndent) = some value ∧
        endsWithComma value = true ∧ name = value.dropLast ∧ lines = line' :: lines' ∧
        rest = line' ++ linesText lines' := by
  have hline : '\n' ∉ line.dropWhile isIndent := fun hmem ↦
    h line (by simp) ((List.dropWhile_suffix isIndent).subset hmem)
  constructor
  · rintro ⟨indent, indent', hi, hi', hn, hhead, he⟩
    have hd := dropWhile_isIndent_text line lines
    rw [he, dropWhile_exact hi (by simp [keyText_eq, isIndent])] at hd
    obtain ⟨v, hv, ht⟩ := append_eq_text (not_mem_keyText (by decide)) hd
    have hnl : '\n' ∉ indent' := fun hmem ↦ absurd (hi' _ hmem) (by decide)
    have hcomma : (indent' ++ (name ++ [','])) ++ '\n' :: rest = v ++ linesText lines := by
      simpa using ht
    have hvline : '\n' ∉ v := fun hmem ↦ hline (by simp [hv, hmem])
    obtain ⟨rfl, line', lines', rfl, rfl⟩ :=
      append_lineEnd_inj (by simp [hnl, hn]) hvline hcomma
    have hvalue : (indent' ++ (name ++ [','])).dropWhile isIndent = name ++ [','] := by
      refine dropWhile_exact hi' fun c hc ↦ ?_
      cases name with
      | nil =>
        obtain rfl : ',' = c := by simpa using hc
        rfl
      | cons d name => exact hhead c (by simpa using hc)
    refine ⟨name ++ [','], line', lines', ?_, endsWithComma_iff.2 ⟨name, rfl⟩, by simp, rfl, rfl⟩
    exact fieldAt?_eq_some.2 ⟨_, hv, hvalue.symm⟩
  · rintro ⟨value, line', lines', hf, hcomma, rfl, rfl, rfl⟩
    obtain ⟨t, ht, rfl⟩ := fieldAt?_eq_some.1 hf
    obtain ⟨u, hu⟩ := endsWithComma_iff.1 hcomma
    have hu' : '\n' ∉ t := fun hmem ↦ hline (by simp [ht, hmem])
    have htu : t = t.takeWhile isIndent ++ (u ++ [',']) := by
      rw [← hu, List.takeWhile_append_dropWhile]
    refine ⟨line.takeWhile isIndent, t.takeWhile isIndent,
      fun _ ↦ List.mem_takeWhile_imp, fun _ ↦ List.mem_takeWhile_imp, ?_, ?_, ?_⟩
    · rw [hu, List.dropLast_concat]
      exact fun hmem ↦ hu' (by rw [htu]; simp [hmem])
    · intro c hc
      rw [hu, List.dropLast_concat] at hc
      cases u with
      | nil => cases hc
      | cons d u => exact head_dropWhile c (by rw [hu]; simpa using hc)
    · have hline' : line = line.takeWhile isIndent ++ (keyText "package" ++ t) := by
        rw [← ht, List.takeWhile_append_dropWhile]
      have hdrop : (t.dropWhile isIndent).dropLast = u := by rw [hu, List.dropLast_concat]
      rw [hdrop, linesText_cons]
      conv_lhs => rw [hline', htu]
      simp

theorem versionField_iff (h : OnOneLine (line :: lines)) :
    VersionField (line ++ linesText lines) version rest ↔
      ∃ lines', nextField? "version" (line :: lines) = some (version, lines') ∧
        rest = linesText lines' := by
  constructor
  · rintro ⟨blanks, indent, hb, hi, hv, hhead, hrest, he⟩
    obtain ⟨line₁, lines₁, v, hl, hkey, ht⟩ := (field_iff (by decide)).1 ⟨blanks, hb, he⟩
    have hnl : '\n' ∉ indent := fun hmem ↦ absurd (hi _ hmem) (by decide)
    have hvline := on_one_line_of_field h hl hkey
    have hvalue : (indent ++ version).dropWhile isIndent = version := dropWhile_exact hi hhead
    obtain ⟨rfl, rfl⟩ : v = indent ++ version ∧ rest = linesText lines₁ := by
      rcases hrest with rfl | ⟨after, rfl⟩
      · obtain ⟨u, rfl, hu⟩ := append_eq_text (a := indent ++ version) (t := [])
          (by simp [hnl, hv]) (by simpa using ht)
        obtain ⟨rfl, hnil⟩ : u = [] ∧ linesText lines₁ = [] := by simpa using hu.symm
        exact ⟨by simp, hnil.symm⟩
      · have ht' : (indent ++ version) ++ '\n' :: after = v ++ linesText lines₁ := by simpa using ht
        obtain ⟨rfl, line', lines', rfl, rfl⟩ :=
          append_lineEnd_inj (by simp [hnl, hv]) hvline ht'
        exact ⟨rfl, linesText_cons.symm⟩
    exact ⟨lines₁, nextField?_eq_some.2 ⟨line₁, _, hl, hkey, hvalue.symm⟩, rfl⟩
  · rintro ⟨lines', hn, rfl⟩
    obtain ⟨line₁, v, hl, hkey, rfl⟩ := nextField?_eq_some.1 hn
    have hv := on_one_line_of_field h hl hkey
    obtain ⟨blanks, hb, he⟩ := (field_iff (by decide)).2 ⟨line₁, _, _, hl, hkey, rfl⟩
    refine ⟨blanks, v.takeWhile isIndent, hb, fun _ ↦ List.mem_takeWhile_imp, ?_, head_dropWhile,
      ?_, ?_⟩
    · exact fun hmem ↦ hv ((List.dropWhile_suffix isIndent).subset hmem)
    · cases lines' with
      | nil => exact .inl rfl
      | cons line' lines' => exact .inr ⟨_, linesText_cons⟩
    · rw [he, ← List.append_assoc (v.takeWhile isIndent), List.takeWhile_append_dropWhile]

theorem nextInnerField?_suffix (h : nextInnerField? key lines = some (value, lines')) :
    lines' <:+ lines :=
  nextField?_suffix (nextInnerField?_eq_some.1 h).1

theorem stateFields?_suffix (h : stateFields? lines = some (version, lines')) :
    lines' <:+ lines := by
  obtain ⟨_, _, _, _, hb, hr, hv⟩ := stateFields?_eq_some.1 h
  exact (nextField?_suffix hv).trans ((nextInnerField?_suffix hr).trans (nextInnerField?_suffix hb))

theorem or_stateFields?_suffix
    (h : (stateFields? (lines.drop 1)).or (stateFields? lines) = some (version, lines')) :
    lines' <:+ lines := by
  rcases Option.or_eq_some_iff.1 h with h | ⟨-, h⟩
  · exact (stateFields?_suffix h).trans (List.drop_suffix _ _)
  · exact stateFields?_suffix h

theorem block?_suffix (h : block? line lines = some (name, version, lines')) :
    lines' <:+ lines := by
  obtain ⟨_, _, lines₁, -, -, -, hu, hs⟩ := block?_eq_some.1 h
  exact (or_stateFields?_suffix hs).trans (nextInnerField?_suffix hu)

theorem stateFields_iff (h : OnOneLine (line :: lines)) :
    StateFields (line ++ linesText lines) version rest ↔
      ∃ lines', stateFields? (line :: lines) = some (version, lines') ∧
        rest = linesText lines' := by
  constructor
  · rintro ⟨s₁, s₂, hbranch, hrevision, hversion⟩
    obtain ⟨_, line₁, lines₁, hb, rfl⟩ := (innerField_iff (by decide) h).1 hbranch
    have h₁ := h.of_suffix (nextInnerField?_suffix hb)
    obtain ⟨_, line₂, lines₂, hr, rfl⟩ := (innerField_iff (by decide) h₁).1 hrevision
    have h₂ := h₁.of_suffix (nextInnerField?_suffix hr)
    obtain ⟨lines', hv, rfl⟩ := (versionField_iff h₂).1 hversion
    exact ⟨lines', stateFields?_eq_some.2 ⟨_, _, _, _, hb, hr, hv⟩, rfl⟩
  · rintro ⟨lines', hs, rfl⟩
    obtain ⟨_, lines₁, _, lines₂, hb, hr, hv⟩ := stateFields?_eq_some.1 hs
    have h₁ := h.of_suffix (nextInnerField?_suffix hb)
    have h₂ := h₁.of_suffix (nextInnerField?_suffix hr)
    obtain ⟨line₁, rest₁, rfl⟩ := List.exists_cons_of_ne_nil (nextInnerField?_eq_some.1 hb).2.2
    obtain ⟨line₂, rest₂, rfl⟩ := List.exists_cons_of_ne_nil (nextInnerField?_eq_some.1 hr).2.2
    exact ⟨_, _, (innerField_iff (by decide) h).2 ⟨_, _, _, hb, rfl⟩,
      (innerField_iff (by decide) h₁).2 ⟨_, _, _, hr, rfl⟩,
      (versionField_iff h₂).2 ⟨lines', hv, rfl⟩⟩

theorem blockAt_iff (h : OnOneLine (line :: lines)) :
    BlockAt (line ++ linesText lines) name version rest ↔
      ∃ lines', block? line lines = some (name, version, lines') ∧ rest = linesText lines' := by
  constructor
  · rintro ⟨s₁, s₂, s₃, hp, hurl, hskip, hstate⟩
    obtain ⟨value, line₁, lines₁, hf, hcomma, rfl, rfl, rfl⟩ := (packageField_iff h).1 hp
    have h₁ : OnOneLine (line₁ :: lines₁) := h.of_suffix (List.suffix_cons _ _)
    obtain ⟨url, line₂, lines₂, hu, rfl⟩ := (innerField_iff (by decide) h₁).1 hurl
    have h₂ := h₁.of_suffix (nextInnerField?_suffix hu)
    obtain ⟨lines', hor, rfl⟩ : ∃ lines', (stateFields? lines₂).or (stateFields? (line₂ :: lines₂)) =
        some (version, lines') ∧ rest = linesText lines' := by
      -- The search leaves a line out whenever it can; where both ways work it was blank.
      rcases hskip with rfl | ⟨skipped, hskipped, he⟩
      · obtain ⟨lines', hs, rfl⟩ := (stateFields_iff h₂).1 hstate
        cases hs' : stateFields? lines₂ with
        | none => exact ⟨lines', by simpa using hs, rfl⟩
        | some p =>
          obtain ⟨version', rest'⟩ := p
          obtain ⟨rfl, rfl⟩ := stateFields?_unique hs hs'
          exact ⟨_, rfl, rfl⟩
      · obtain ⟨rfl, line₃, lines₃, rfl, rfl⟩ :=
          append_lineEnd_inj hskipped (h₂ line₂ (by simp)) he.symm
        have h₃ : OnOneLine (line₃ :: lines₃) := h₂.of_suffix (List.suffix_cons _ _)
        obtain ⟨lines', hs, rfl⟩ := (stateFields_iff h₃).1 hstate
        exact ⟨lines', by rw [hs, Option.some_or], rfl⟩
    exact ⟨lines', block?_eq_some.2 ⟨value, url, _, hf, hcomma, rfl, hu, hor⟩, rfl⟩
  · rintro ⟨lines', hb, rfl⟩
    obtain ⟨value, url, lines₁, hf, hcomma, rfl, hu, hs⟩ := block?_eq_some.1 hb
    obtain ⟨line₁, rest₁, rfl⟩ := List.exists_cons_of_ne_nil (nextInnerField?_eq_some.1 hu).2.2
    cases lines with
    | nil => cases hu
    | cons line₂ lines =>
      have h₂ : OnOneLine (line₂ :: lines) := h.of_suffix (List.suffix_cons _ _)
      have h₁ := h₂.of_suffix (nextInnerField?_suffix hu)
      have hp := (packageField_iff h).2 ⟨value, line₂, lines, hf, hcomma, rfl, rfl, rfl⟩
      have hu' := (innerField_iff (by decide) h₂).2 ⟨url, line₁, rest₁, hu, rfl⟩
      rw [List.drop_one, List.tail_cons] at hs
      rcases Option.or_eq_some_iff.1 hs with hs | ⟨-, hs⟩
      · cases rest₁ with
        | nil => cases hs
        | cons line₃ rest₃ =>
          have h₃ : OnOneLine (line₃ :: rest₃) := h₁.of_suffix (List.suffix_cons _ _)
          exact ⟨_, _, _, hp, hu', .inr ⟨line₁, h₁ line₁ (by simp), by rw [linesText_cons]⟩,
            (stateFields_iff h₃).2 ⟨lines', hs, rfl⟩⟩
      · exact ⟨_, _, _, hp, hu', .inl rfl, (stateFields_iff h₁).2 ⟨lines', hs, rfl⟩⟩

end SwiftInventory.Lock
