import SwiftInventory.Proofs.Lock.Extraction
import SwiftInventory.Proofs.Lock.Search
import SwiftInventory.Proofs.Growth
import SwiftInventory.Proofs.Trimming

namespace SwiftInventory.Lock

open Text

structure LineText where
  chars : Line
  on_one_line : '\n' ∉ chars

structure Indent where
  chars : Line
  all_indent : chars.all isIndent = true

/-- A line that may stand around the blocks. -/
structure Filler where
  chars : Line
  on_one_line : '\n' ∉ chars
  no_package : ¬ keyText "package" <+: chars.dropWhile isIndent

/-- All that is written of a pin, with the indentation of each line. The line of the state may be
left out. -/
structure Block where
  name : LineText
  url : LineText
  branch : LineText
  revision : LineText
  version : LineText
  nameIndent : Indent
  urlIndent : Indent
  stateIndent : Option Indent
  branchIndent : Indent
  revisionIndent : Indent
  versionIndent : Indent

def fieldLine (indent : Indent) (key : String) (value : Line) : Line :=
  indent.chars ++ (keyText key ++ ' ' :: value)

def inQuotes (s : Line) : Line := '"' :: s ++ ['"']

namespace Block

variable (b : Block)

def nameLine : Line := fieldLine b.nameIndent "package" (inQuotes b.name.chars ++ [','])

def urlLine : Line := fieldLine b.urlIndent "repositoryURL" (b.url.chars ++ [','])

def stateLines : List Line := (b.stateIndent.map (fieldLine · "state" ['{'])).toList

def branchLine : Line := fieldLine b.branchIndent "branch" (b.branch.chars ++ [','])

def revisionLine : Line := fieldLine b.revisionIndent "revision" (b.revision.chars ++ [','])

def versionLine : Line := fieldLine b.versionIndent "version" (inQuotes b.version.chars)

def lines : List Line :=
  b.nameLine :: b.urlLine :: b.stateLines ++ [b.branchLine, b.revisionLine, b.versionLine]

def pin : Pin := ⟨String.ofList b.name.chars, String.ofList b.version.chars⟩

end Block

def layoutLines (before : List Filler) (blocks : List (Block × List Filler)) : List Line :=
  before.map (·.chars) ++ blocks.flatMap fun (b, after) ↦ b.lines ++ after.map (·.chars)

def layout (before : List Filler) (blocks : List (Block × List Filler)) : List Char :=
  ['\n'].intercalate (layoutLines before blocks)

variable {key : String} {i : Indent} {s value : Line} {lines rest : List Line}

theorem dropWhile_fieldLine {p : Char → Bool} (hp : ∀ c, isIndent c = true → p c = true)
    (hq : p '"' = false) : (fieldLine i key value).dropWhile p = keyText key ++ ' ' :: value := by
  have hi (c : Char) (hc : c ∈ i.chars) : p c = true := hp c (List.all_eq_true.1 i.all_indent c hc)
  rw [fieldLine, List.dropWhile_append_of_pos hi, keyText_eq]
  simp [hq]

theorem trimStart_fieldLine : trimStart (fieldLine i key value) = keyText key ++ ' ' :: value :=
  dropWhile_fieldLine (fun _ ↦ isBlank_of_isIndent) rfl

theorem nextField?_cons {key' : String} :
    nextField? key' (fieldLine i key value :: rest) =
      (fieldAt? key' (keyText key ++ ' ' :: value)).map (·, rest) := by
  have hq : isBlank '"' = false := rfl
  have hb : (fieldLine i key value).all isBlank = false := by simp [fieldLine, keyText_eq, hq]
  rw [nextField?, List.dropWhile_cons_of_neg (by simp [hb])]
  simp only [trimStart_fieldLine]

theorem nextField?_fieldLine :
    nextField? key (fieldLine i key value :: rest) = some (value.dropWhile isIndent, rest) := by
  have hspace : isIndent ' ' = true := rfl
  rw [nextField?_cons, fieldAt?_keyText, List.dropWhile_cons_of_pos hspace, Option.map_some]

theorem nextInnerField?_fieldLine (h : rest ≠ []) :
    nextInnerField? key (fieldLine i key (s ++ [',']) :: rest) =
      some ((s ++ [',']).dropWhile isIndent, rest) :=
  nextInnerField?_eq_some.2 ⟨nextField?_fieldLine, endsWithComma_dropWhile, h⟩

theorem unquote_inQuotes : unquote (inQuotes s) = s := by
  simp [unquote, inQuotes]

theorem trimVersion_inQuotes : trimVersion (inQuotes s) = inQuotes s := by
  have hq : isIndent '"' = false := rfl
  have hkeep : ((inQuotes s).reverse.dropWhile isIndent).reverse = inQuotes s := by
    simp [inQuotes, hq]
  have hlast : (inQuotes s).getLast? = some '"' := List.getLast?_concat
  simp [trimVersion, hkeep, dropComma, hlast]

theorem dropWhile_inQuotes : (inQuotes s).dropWhile isIndent = inQuotes s := by
  have hq : isIndent '"' = false := rfl
  simp [inQuotes, hq]

namespace Block

variable (b : Block)

theorem stateFields?_lines :
    stateFields? (b.branchLine :: b.revisionLine :: b.versionLine :: rest) =
      some (inQuotes b.version.chars, rest) := by
  have hv : nextField? "version" (b.versionLine :: rest) =
      some (inQuotes b.version.chars, rest) := by
    rw [versionLine, nextField?_fieldLine, dropWhile_inQuotes]
  exact stateFields?_eq_some.2 ⟨_, _, _, _, nextInnerField?_fieldLine (by simp),
    nextInnerField?_fieldLine (by simp), hv⟩

/-- Where the line of the state is missing, the search first takes the branch for it and must not
find another branch on the next line. -/
theorem stateFields?_revisionLine : stateFields? (b.revisionLine :: lines) = none := by
  have h : fieldAt? "branch" (keyText "revision" ++ ' ' :: (b.revision.chars ++ [','])) = none := by
    rw [fieldAt?_eq_none]
    simp [keyText_eq]
  simp [stateFields?, nextInnerField?, revisionLine, nextField?_cons, h]

theorem block?_lines :
    block? b.nameLine (b.urlLine ::
        (b.stateLines ++ b.branchLine :: b.revisionLine :: b.versionLine :: rest)) =
      some (inQuotes b.name.chars, inQuotes b.version.chars, rest) := by
  have hspace : isIndent ' ' = true := rfl
  have hname : fieldAt? "package" (b.nameLine.dropWhile isIndent) =
      some (inQuotes b.name.chars ++ [',']) := by
    have hq : isIndent '"' = false := rfl
    rw [nameLine, dropWhile_fieldLine (fun _ ↦ id) rfl, fieldAt?_keyText,
      List.dropWhile_cons_of_pos hspace]
    simp [inQuotes, hq]
  refine block?_eq_some.2 ⟨_, _, _, hname, by simp [endsWithComma], by simp,
    nextInnerField?_fieldLine (by simp), ?_⟩
  cases hs : b.stateIndent with
  | none => simp [stateLines, hs, stateFields?_revisionLine, stateFields?_lines]
  | some i => simp [stateLines, hs, stateFields?_lines]

theorem pinsOfLines_lines : pinsOfLines (b.lines ++ rest) = b.pin :: pinsOfLines rest := by
  have h : b.lines ++ rest = b.nameLine :: b.urlLine ::
      (b.stateLines ++ b.branchLine :: b.revisionLine :: b.versionLine :: rest) := by
    simp [lines]
  rw [h, pinsOfLines_cons_of_some b.block?_lines, Pin.ofValues, unquote_inQuotes,
    trimVersion_inQuotes, unquote_inQuotes, pin]

end Block

theorem pinsOfLines_fillers (fillers : List Filler) :
    pinsOfLines (fillers.map (·.chars) ++ rest) = pinsOfLines rest := by
  induction fillers with
  | nil => rfl
  | cons f fillers ih =>
    have h : block? f.chars (fillers.map (·.chars) ++ rest) = none := by
      simp [block?, fieldAt?_eq_none.2 f.no_package]
    rw [List.map_cons, List.cons_append, pinsOfLines_cons_of_none h, ih]

theorem pinsOfLines_layoutLines (before : List Filler) (blocks : List (Block × List Filler)) :
    pinsOfLines (layoutLines before blocks) = blocks.map (·.1.pin) := by
  rw [layoutLines, pinsOfLines_fillers]
  induction blocks with
  | nil => rfl
  | cons b blocks ih =>
    rw [List.flatMap_cons, List.append_assoc, b.1.pinsOfLines_lines, pinsOfLines_fillers, ih,
      List.map_cons]

theorem not_mem_fieldLine (hk : '\n' ∉ key.toList) (hv : '\n' ∉ value) :
    '\n' ∉ fieldLine i key value := by
  have hi : '\n' ∉ i.chars := fun h ↦
    absurd (List.all_eq_true.1 i.all_indent _ h) (by decide)
  simp [fieldLine, keyText_eq, hi, hk, hv]

theorem Block.on_one_line (b : Block) : ∀ line ∈ b.lines, '\n' ∉ line := by
  intro line h
  have hstate (h : line ∈ b.stateLines) : '\n' ∉ line := by
    obtain ⟨i, _, rfl⟩ := by simpa [stateLines] using h
    exact not_mem_fieldLine (by decide) (by decide)
  simp only [lines, List.cons_append, List.mem_cons, List.mem_append, List.not_mem_nil,
    or_false] at h
  rcases h with rfl | rfl | h | rfl | rfl | rfl
  · exact not_mem_fieldLine (by decide) (by simp [inQuotes, b.name.on_one_line])
  · exact not_mem_fieldLine (by decide) (by simp [b.url.on_one_line])
  · exact hstate h
  · exact not_mem_fieldLine (by decide) (by simp [b.branch.on_one_line])
  · exact not_mem_fieldLine (by decide) (by simp [b.revision.on_one_line])
  · exact not_mem_fieldLine (by decide) (by simp [inQuotes, b.version.on_one_line])

variable (before : List Filler) (blocks : List (Block × List Filler))

theorem layoutLines_on_one_line : ∀ line ∈ layoutLines before blocks, '\n' ∉ line := by
  have hf (fillers : List Filler) : ∀ line ∈ fillers.map (·.chars), '\n' ∉ line := by
    simp only [List.mem_map]
    rintro _ ⟨f, _, rfl⟩
    exact f.on_one_line
  intro line h
  simp only [layoutLines, List.mem_append, List.mem_flatMap] at h
  rcases h with h | ⟨b, _, h | h⟩
  · exact hf before line h
  · exact b.1.on_one_line line h
  · exact hf b.2 line h

theorem pins_layout : pins (layout before blocks) = blocks.map (·.1.pin) := by
  rw [← pinsOfLines_layoutLines before, pins_eq, layout]
  by_cases h : layoutLines before blocks = []
  · rw [h]
    rfl
  · rw [List.splitOn_intercalate '\n' (layoutLines_on_one_line before blocks) h]

/-- The pins of a layout come back as they were written. The file has records unless one of the
names stops it, and then one for each pin, with the digests of its text. Equal pins have different
records. -/
theorem layout_read_back (file : Path) :
    pins (layout before blocks) = blocks.map (·.1.pin) ∧
    ((∃ rs, extract file (String.ofList (layout before blocks)) = .ok rs) ↔
      ∀ b ∈ blocks, ¬ b.1.pin.IsFaulty) ∧
    ∀ rs, extract file (String.ofList (layout before blocks)) = .ok rs →
      List.Forall₂ (fun b r ↦ ∃ i, b.1.pin.identifier = .ok i ∧ r = b.1.pin.record file i) blocks rs ∧
      (∀ r ∈ rs, ∃ c, r.checksums = some c ∧ c.IsHex) ∧
      ∀ inv : Inventory, (inv.make rs).1.Nodup ∧ (inv.make rs).1.map (inv.make rs).2.get = rs := by
  refine ⟨pins_layout before blocks, ?_,
    fun rs h ↦ ⟨?_, fun r ↦ isHex_checksums_of_mem h, fun inv ↦ ?_⟩⟩
  · rw [extract_returns, String.toList_ofList, pins_layout]
    simp only [List.forall_mem_map]
  · rw [extract_eq_ok, String.toList_ofList, pins_layout, List.forall₂_map_left_iff] at h
    exact h.imp fun _ _ ↦ recordOf_eq_ok.1
  · exact ⟨inv.make_distinct rs, inv.map_get_make rs⟩

def oddBlock : Block where
  name := ⟨"a\",\\ \"é".toList, by decide⟩
  url := ⟨"\"https://x/y\", ,".toList, by decide⟩
  branch := ⟨"null".toList, by decide⟩
  revision := ⟨"".toList, by decide⟩
  version := ⟨"1.0,\" ".toList, by decide⟩
  nameIndent := ⟨"\t ".toList, by decide⟩
  urlIndent := ⟨[], by decide⟩
  stateIndent := none
  branchIndent := ⟨"  ".toList, by decide⟩
  revisionIndent := ⟨[], by decide⟩
  versionIndent := ⟨[], by decide⟩

def closingLine : Filler := ⟨"  \x7d,".toList, by decide, by decide⟩

def oddDigests : Checksums where
  sha1 := "4c56777147898f2f64262c63ee0a9233fb70c1bb"
  sha256 := "1cd9c67f22e0ffd28efc96163b4dd01f034f073335a8d5f4186236c778b3d50f"
  md5 := "d24da59b49981741775ff25af5913034"

theorem odd_blocks_read_back : ∃ rs : List Record,
    extract (.ofString "Package.resolved")
      (String.ofList (layout [closingLine] [(oddBlock, [closingLine]), (oddBlock, [])])) = .ok rs ∧
    List.Forall₂ (fun b r ↦ (∃ i, b.1.pin.identifier = .ok i ∧
      r = b.1.pin.record (.ofString "Package.resolved") i) ∧ r.checksums = some oddDigests)
      [(oddBlock, [closingLine]), (oddBlock, [])] rs := by
  have hread := layout_read_back [closingLine] [(oddBlock, [closingLine]), (oddBlock, [])]
    (.ofString "Package.resolved")
  have hfine : ¬ oddBlock.pin.IsFaulty := by decide
  obtain ⟨rs, hrs⟩ := hread.2.1.2 (by simp [hfine])
  refine ⟨rs, hrs, ?_⟩
  have hdigests {r : Record} (h : ∃ i, oddBlock.pin.identifier = .ok i ∧
      r = oddBlock.pin.record (.ofString "Package.resolved") i) :
      r.checksums = some oddDigests := by
    obtain ⟨i, -, rfl⟩ := h
    simp only [Pin.record]
    decide +kernel
  obtain ⟨r, _, hr, hrest, rfl⟩ := List.forall₂_cons_left_iff.1 (hread.2.2 rs hrs).1
  obtain ⟨r', _, hr', hnil, rfl⟩ := List.forall₂_cons_left_iff.1 hrest
  cases hnil
  exact .cons ⟨hr, hdigests hr⟩ (.cons ⟨hr', hdigests hr'⟩ .nil)

end SwiftInventory.Lock
