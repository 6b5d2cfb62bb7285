import SwiftInventory.Proofs.Lock.Acceptance
import SwiftInventory.Proofs.Lock.Values
import SwiftInventory.Proofs.Pattern

namespace SwiftInventory

namespace Lock

open Text Pattern

def inLine (c : Char) : Bool := c != '\n'

def linePattern : Pattern := sequence [run inLine, literal ['\n']]

def innerPattern (key : String) : List Pattern :=
  [run isBlank, literal (keyText key), run isIndent, run inLine, literal [',', '\n']]

def beforeName : List Pattern := [run isIndent, literal (keyText "package"), run isIndent]

def beforeVersion : List Pattern :=
  literal [',', '\n'] :: (innerPattern "repositoryURL" ++ optional linePattern ::
    (innerPattern "branch" ++ (innerPattern "revision" ++
      [run isBlank, literal (keyText "version"), run isIndent])))

def blockPattern : Pattern := sequence (beforeName ++ run inLine :: (beforeVersion ++ [run inLine]))

def taken (s rest : List Char) : List Char := s.take (s.length - rest.length)

def matchesFrom (fromName : List Char) : List (Line × Line × List Char) :=
  ((run inLine).rests fromName).flatMap fun afterName ↦
    ((sequence beforeVersion).rests afterName).flatMap fun fromVersion ↦
      ((run inLine).rests fromVersion).map fun rest ↦
        (taken fromName afterName, taken fromVersion rest, rest)

/-- The ways to match a block, in the order in which they are tried, with the two runs that are
captured and the rest. -/
def blockMatches (s : List Char) : List (Line × Line × List Char) :=
  ((sequence beforeName).rests s).flatMap matchesFrom

variable {key : String} {s rest fromName afterName fromVersion : List Char} {name version : Line}

theorem taken_append (u rest : List Char) : taken (u ++ rest) rest = u := by
  simp [taken]

theorem rests_blockMatches : (blockMatches s).map (·.2.2) = blockPattern.rests s := by
  rw [blockPattern, rests_sequence_append, blockMatches, List.map_flatMap]
  refine congrArg (List.flatMap · _) (funext fun fromName ↦ ?_)
  rw [matchesFrom, List.map_flatMap, rests_sequence_cons]
  refine congrArg (List.flatMap · _) (funext fun afterName ↦ ?_)
  rw [List.map_flatMap, rests_sequence_append]
  refine congrArg (List.flatMap · _) (funext fun fromVersion ↦ ?_)
  rw [List.map_map, rests_sequence_singleton]
  exact List.map_id' _

theorem inLine_iff : (∀ c ∈ s, inLine c = true) ↔ '\n' ∉ s := by
  constructor
  · intro h hmem
    exact absurd (h _ hmem) (by decide)
  · intro h c hc
    simpa [inLine] using fun he : c = '\n' ↦ h (he ▸ hc)

theorem mem_rests_linePattern :
    rest ∈ linePattern.rests s ↔ ∃ line, '\n' ∉ line ∧ s = line ++ '\n' :: rest := by
  simp only [linePattern, mem_rests_run_cons, mem_rests_literal_cons, mem_rests_nil, inLine_iff]
  constructor
  · rintro ⟨line, _, hline, rfl, _, rfl, rfl⟩
    exact ⟨line, hline, rfl⟩
  · rintro ⟨line, hline, rfl⟩
    exact ⟨line, _, hline, rfl, rest, rfl, rfl⟩

theorem mem_rests_innerPattern :
    rest ∈ (sequence (innerPattern key)).rests s ↔ InnerField key s rest := by
  simp only [innerPattern, mem_rests_run_cons, mem_rests_literal_cons, mem_rests_nil, inLine_iff]
  constructor
  · rintro ⟨blanks, _, hblanks, rfl, _, rfl, indent, _, hindent, rfl, value, _, hvalue, rfl, _, rfl,
      rfl⟩
    have hindent' : '\n' ∉ indent := fun hmem ↦ absurd (hindent _ hmem) (by decide)
    exact ⟨blanks, indent ++ value, hblanks, by simp [hindent', hvalue], by simp⟩
  · rintro ⟨blanks, value, hblanks, hvalue, rfl⟩
    exact ⟨blanks, _, hblanks, rfl, _, rfl, [], _, by simp, rfl, value, _, hvalue, rfl, rest, rfl,
      rfl⟩

theorem mem_rests_beforeVersion :
    fromVersion ∈ (sequence beforeVersion).rests afterName ↔
      ∃ s₁ s₂ s₃ s₄ s₅, afterName = ',' :: '\n' :: s₁ ∧ InnerField "repositoryURL" s₁ s₂ ∧
        (s₃ = s₂ ∨ ∃ line, '\n' ∉ line ∧ s₂ = line ++ '\n' :: s₃) ∧ InnerField "branch" s₃ s₄ ∧
        InnerField "revision" s₄ s₅ ∧ ∃ blanks indent, (∀ c ∈ blanks, isBlank c = true) ∧
          (∀ c ∈ indent, isIndent c = true) ∧
          s₅ = blanks ++ (keyText "version" ++ (indent ++ fromVersion)) := by
  simp only [beforeVersion, mem_rests_literal_cons, mem_rests_append, mem_rests_innerPattern,
    mem_rests_optional_cons, mem_rests_linePattern, mem_rests_run_cons, mem_rests_nil]
  constructor
  · rintro ⟨s₁, rfl, s₂, hurl, s₃, hskip, s₄, hbranch, s₅, hrevision, blanks, _, hblanks, rfl, _, rfl,
      indent, _, hindent, rfl, rfl⟩
    exact ⟨s₁, s₂, s₃, s₄, _, rfl, hurl, hskip, hbranch, hrevision, blanks, indent, hblanks, hindent,
      rfl⟩
  · rintro ⟨s₁, s₂, s₃, s₄, _, rfl, hurl, hskip, hbranch, hrevision, blanks, indent, hblanks, hindent,
      rfl⟩
    exact ⟨s₁, rfl, s₂, hurl, s₃, hskip, s₄, hbranch, _, hrevision, blanks, _, hblanks, rfl, _, rfl,
      indent, _, hindent, rfl, rfl⟩

theorem mem_rests_beforeName :
    fromName ∈ (sequence beforeName).rests s ↔
      ∃ indent indent', (∀ c ∈ indent, isIndent c = true) ∧ (∀ c ∈ indent', isIndent c = true) ∧
        s = indent ++ (keyText "package" ++ (indent' ++ fromName)) := by
  simp only [beforeName, mem_rests_run_cons, mem_rests_literal_cons, mem_rests_nil]
  constructor
  · rintro ⟨indent, _, hindent, rfl, _, rfl, indent', _, hindent', rfl, rfl⟩
    exact ⟨indent, indent', hindent, hindent', rfl⟩
  · rintro ⟨indent, indent', hindent, hindent', rfl⟩
    exact ⟨indent, _, hindent, rfl, _, rfl, indent', _, hindent', rfl, rfl⟩

theorem taken_dropWhile : taken s (s.dropWhile inLine) = s.takeWhile inLine := by
  have h := taken_append (s.takeWhile inLine) (s.dropWhile inLine)
  rwa [List.takeWhile_append_dropWhile] at h

theorem matchesFrom_ne_nil :
    matchesFrom fromName ≠ [] ↔ ∃ name afterName fromVersion, '\n' ∉ name ∧
      fromName = name ++ afterName ∧ fromVersion ∈ (sequence beforeVersion).rests afterName := by
  have hrun (t : List Char) : runRests inLine t ≠ [] := by
    intro hnil
    have hfirst := head?_runRests (p := inLine) (s := t)
    rw [hnil] at hfirst
    cases hfirst
  simp only [matchesFrom, ne_eq, List.flatMap_eq_nil_iff, List.map_eq_nil_iff, not_forall]
  constructor
  · rintro ⟨afterName, hafter, fromVersion, hversion, -⟩
    obtain ⟨name, hname, rfl⟩ := mem_runRests.1 hafter
    exact ⟨name, afterName, fromVersion, inLine_iff.1 hname, rfl, hversion⟩
  · rintro ⟨name, afterName, fromVersion, hname, rfl, hversion⟩
    exact ⟨afterName, mem_runRests.2 ⟨name, inLine_iff.2 hname, rfl⟩, fromVersion, hversion,
      hrun fromVersion⟩

theorem dropWhile_append_comma {t : List Char} :
    (s ++ ',' :: t).dropWhile isIndent = s.dropWhile isIndent ++ ',' :: t := by
  have hcomma : isIndent ',' = false := rfl
  induction s with
  | nil => exact List.dropWhile_cons_of_neg (by simp [hcomma])
  | cons c s ih =>
    rw [List.cons_append, List.dropWhile_cons, List.dropWhile_cons, ih]
    split <;> rfl

/-- Giving back blanks in front of a name gains nothing. -/
theorem matchesFrom_dropWhile (h : matchesFrom fromName ≠ []) :
    matchesFrom (fromName.dropWhile isIndent) ≠ [] := by
  obtain ⟨name, afterName, fromVersion, hname, rfl, hversion⟩ := matchesFrom_ne_nil.1 h
  obtain ⟨s₁, _, _, _, _, rfl, -⟩ := mem_rests_beforeVersion.1 hversion
  have hname' : '\n' ∉ name.dropWhile isIndent := fun hmem ↦
    hname ((List.dropWhile_suffix isIndent).subset hmem)
  exact matchesFrom_ne_nil.2 ⟨_, _, fromVersion, hname', dropWhile_append_comma, hversion⟩

theorem head?_matchesFrom (h : (matchesFrom fromName).head? = some (name, version, rest)) :
    ∃ afterName fromVersion, fromName = name ++ afterName ∧ '\n' ∉ name ∧
      fromVersion ∈ (sequence beforeVersion).rests afterName ∧
      (∀ c ∈ fromVersion.head?, isIndent c = false) ∧
      version = fromVersion.takeWhile inLine ∧ rest = fromVersion.dropWhile inLine := by
  rw [matchesFrom, List.head?_flatMap] at h
  obtain ⟨afterName, hafter, h⟩ := List.exists_of_findSome?_eq_some h
  obtain ⟨u, hu, rfl⟩ := mem_runRests.1 hafter
  simp only [rests, head?_flatMap_runRests, Option.map_eq_some_iff, taken_append, taken_dropWhile]
    at h
  obtain ⟨fromVersion, hfirst, he⟩ := h
  cases he
  refine ⟨afterName, fromVersion, rfl, inLine_iff.1 hu, List.mem_of_head? hfirst, ?_, rfl, rfl⟩
  have hlast : beforeVersion = beforeVersion.dropLast ++ [run isIndent] := rfl
  rw [hlast, head?_rests_run, Option.map_eq_some_iff] at hfirst
  obtain ⟨t, -, rfl⟩ := hfirst
  exact head_dropWhile

theorem head?_beforeName (h : ((sequence beforeName).rests s).head? = some fromName) :
    (∀ c ∈ fromName.head?, isIndent c = false) ∧
      ∀ t ∈ (sequence beforeName).rests s, t.dropWhile isIndent = fromName := by
  have hfirst := h
  have hlast : beforeName = beforeName.dropLast ++ [run isIndent] := rfl
  rw [hlast, head?_rests_run, Option.map_eq_some_iff] at hfirst
  obtain ⟨t, -, rfl⟩ := hfirst
  refine ⟨head_dropWhile, fun t' ht' ↦ ?_⟩
  obtain ⟨a, a', ha, ha', hs⟩ := mem_rests_beforeName.1 (List.mem_of_head? h)
  obtain ⟨b, b', hb, hb', rfl⟩ := mem_rests_beforeName.1 ht'
  have hquote (t : List Char) : ∀ c ∈ (keyText "package" ++ t).head?, isIndent c = false := by
    rw [keyText_eq]
    rintro c ⟨⟩
    rfl
  have hkey := congrArg (List.dropWhile isIndent) hs
  rw [dropWhile_exact hb (hquote _), dropWhile_exact ha (hquote _)] at hkey
  have hblanks := congrArg (List.dropWhile isIndent) (List.append_cancel_left hkey)
  rw [List.dropWhile_append_of_pos hb', dropWhile_exact ha' head_dropWhile] at hblanks
  exact hblanks

theorem blockAt_of_head? (h : (blockMatches s).head? = some (name, version, rest)) :
    BlockAt s name version rest := by
  rw [blockMatches] at h
  cases hl : ((sequence beforeName).rests s).head? with
  | none =>
    rw [List.head?_eq_none_iff.1 hl] at h
    cases h
  | some fromName =>
    obtain ⟨hindent, hdrop⟩ := head?_beforeName hl
    rw [head?_flatMap_of_first hl fun t ht hne ↦ hdrop t ht ▸ matchesFrom_dropWhile hne] at h
    obtain ⟨i, i', hi, hi', rfl⟩ := mem_rests_beforeName.1 (List.mem_of_head? hl)
    obtain ⟨afterName, fromVersion, rfl, hname, hversion, hhead, rfl, rfl⟩ := head?_matchesFrom h
    obtain ⟨s₁, s₂, s₃, s₄, s₅, rfl, hurl, hskip, hbranch, hrevision, blanks, j, hblanks, hj, rfl⟩ :=
      mem_rests_beforeVersion.1 hversion
    have hname' : ∀ c ∈ name.head?, isIndent c = false := fun c hc ↦
      hindent c (List.mem_head?_append_of_mem_head? hc)
    have hpackage : PackageField _ name s₁ := ⟨i, i', hi, hi', hname, hname', rfl⟩
    have hversion' : ∀ c ∈ (fromVersion.takeWhile inLine).head?, isIndent c = false := by
      intro c hc
      rw [List.head?_takeWhile, Option.mem_filter_iff] at hc
      exact hhead c hc.1
    exact ⟨s₁, s₂, s₃, hpackage, hurl, hskip, s₄, _, hbranch, hrevision, blanks, j, hblanks, hj,
      inLine_iff.1 fun c ↦ List.mem_takeWhile_imp, hversion', dropWhile_ne_cases _ _,
      by rw [List.takeWhile_append_dropWhile]⟩

theorem BlockAt.blockMatches_ne_nil (h : BlockAt s name version rest) : blockMatches s ≠ [] := by
  obtain ⟨s₁, s₂, s₃, ⟨i, i', hi, hi', hname, -, rfl⟩, hurl, hskip, s₄, s₅, hbranch, hrevision,
    blanks, j, hblanks, hj, -, -, -, rfl⟩ := h
  have hversion := mem_rests_beforeVersion.2 ⟨s₁, s₂, s₃, s₄, _, rfl, hurl, hskip, hbranch,
    hrevision, blanks, j, hblanks, hj, rfl⟩
  have hfrom := matchesFrom_ne_nil.2 ⟨name, _, _, hname, rfl, hversion⟩
  intro hnil
  exact hfrom (List.flatMap_eq_nil_iff.1 hnil _ (mem_rests_beforeName.2 ⟨i, i', hi, hi', rfl⟩))

/-- The match that is tried first is the block. -/
theorem head?_blockMatches :
    (blockMatches s).head? = some (name, version, rest) ↔ BlockAt s name version rest := by
  refine ⟨blockAt_of_head?, fun h ↦ ?_⟩
  obtain ⟨⟨name', version', rest'⟩, more, hl⟩ := List.exists_cons_of_ne_nil h.blockMatches_ne_nil
  have hfirst : (blockMatches s).head? = some (name', version', rest') := by rw [hl, List.head?_cons]
  obtain ⟨rfl, rfl, rfl⟩ := h.unique (blockAt_of_head? hfirst)
  exact hfirst

/-- What a search finds that takes the first match at the start of a line and goes on behind it. The
flag says that the text before has ended a line. -/
inductive Finds : Bool → List Char → List (Line × Line) → Prop
  | nothing (atStart : Bool) : Finds atStart [] []
  | later {atStart : Bool} {c : Char} {s : List Char} {found : List (Line × Line)}
      (h : atStart = true → blockMatches (c :: s) = []) (hs : Finds (c == '\n') s found) :
      Finds atStart (c :: s) found
  | block {s : List Char} {name version : Line} {rest : List Char} {found : List (Line × Line)}
      (h : (blockMatches s).head? = some (name, version, rest))
      (hrest : Finds ((taken s rest).getLast? == some '\n') rest found) :
      Finds true s ((name, version) :: found)

variable {found found' : List (Line × Line)} {atStart : Bool} {line : Line} {lines : List Line}

theorem blockMatches_eq_nil : blockMatches s = [] ↔ ¬ StartsBlock s := by
  constructor
  · rintro hnil ⟨name, version, rest, h⟩
    exact h.blockMatches_ne_nil hnil
  · intro h
    by_contra hne
    obtain ⟨⟨name, version, rest⟩, more, hl⟩ := List.exists_cons_of_ne_nil hne
    exact h ⟨name, version, rest, head?_blockMatches.1 (by rw [hl, List.head?_cons])⟩

theorem Finds.unique (h : Finds atStart s found) (h' : Finds atStart s found') :
    found' = found := by
  induction h generalizing found' with
  | nothing =>
    cases h' with
    | nothing => rfl
    | block h => cases h
  | later hnone _ ih =>
    cases h' with
    | later _ hs => exact ih hs
    | block h =>
      rw [hnone rfl] at h
      cases h
  | block h _ ih =>
    cases h' with
    | nothing => cases h
    | later hnone _ =>
      rw [hnone rfl] at h
      cases h
    | block h' hrest =>
      rw [h] at h'
      cases h'
      rw [ih hrest]

theorem finds_line {t : List Char} (hline : '\n' ∉ line) (ht : ∀ atStart, Finds atStart t found)
    (h : atStart = true → blockMatches (line ++ t) = []) : Finds atStart (line ++ t) found := by
  induction line generalizing atStart with
  | nil => exact ht atStart
  | cons c line ih =>
    have hc : (c == '\n') = false := by
      simpa using fun he : c = '\n' ↦ hline (by simp [he])
    refine .later h (ih (fun hmem ↦ hline (by simp [hmem])) ?_)
    rw [hc]
    nofun

theorem blockMatches_lineEnd (h : OnOneLine lines) : blockMatches (linesText lines) = [] := by
  have hlines : OnOneLine ([] :: lines) := by simpa [OnOneLine] using h
  rw [blockMatches_eq_nil, ← List.nil_append (linesText lines), startsBlock_iff hlines]
  simp [block?, fieldAt?]

theorem exists_finds (h : OnOneLine lines) :
    ∃ found, (∀ atStart, Finds atStart (linesText lines) found) ∧
      pinsOfLines lines = found.map fun captured ↦ .ofValues captured.1 captured.2 := by
  -- Behind a block the search goes on with the rest, so the number of lines carries the induction.
  induction hn : lines.length using Nat.strong_induction_on generalizing lines with
  | _ n ih =>
    cases lines with
    | nil => exact ⟨[], .nothing, rfl⟩
    | cons line lines =>
      rw [List.length_cons] at hn
      have hlines : OnOneLine lines := h.of_suffix (List.suffix_cons _ _)
      have hend := blockMatches_lineEnd h
      rw [linesText_cons] at hend ⊢
      cases hb : block? line lines with
      | none =>
        obtain ⟨found, hfinds, hpins⟩ := ih lines.length (by omega) hlines rfl
        refine ⟨found, fun _ ↦ .later (fun _ ↦ hend) ?_, by rw [pinsOfLines_cons_of_none hb, hpins]⟩
        refine finds_line (h line (by simp)) hfinds fun _ ↦ ?_
        rw [blockMatches_eq_nil, startsBlock_iff h, hb]
        simp
      | some b =>
        obtain ⟨name, version, rest⟩ := b
        have hlength := block?_length hb
        have hrest : OnOneLine rest := hlines.of_suffix (block?_suffix hb)
        obtain ⟨found, hfinds, hpins⟩ := ih rest.length (by omega) hrest rfl
        have hat := (blockAt_iff h).2 ⟨rest, hb, rfl⟩
        refine ⟨(name, version) :: found, fun _ ↦ .later (fun _ ↦ hend) ?_, ?_⟩
        · exact .block (head?_blockMatches.2 hat) (hfinds _)
        · rw [pinsOfLines_cons_of_some hb, hpins, List.map_cons]

theorem exists_finds_pins (s : List Char) :
    ∃ found, Finds true s found ∧
      pins s = found.map fun captured ↦ .ofValues captured.1 captured.2 := by
  obtain ⟨line, lines, hs, rfl, hl⟩ := exists_lines s
  obtain ⟨found, hfinds, hpins⟩ := exists_finds hl
  have hlater := hfinds false
  rw [linesText_cons] at hlater
  cases hlater with
  | later _ h => exact ⟨found, h, by rw [pins_eq, hs, hpins]⟩

/-- Every line at which a block starts gives one pin, in the order of the lines, and so does every
match of a search that goes on behind each block. A block can be read in one way only, and the
blocks that start later start after its end. -/
theorem pins_of_blocks (s : List Char) :
    List.Forall₂
      (fun start pin ↦ ∃ name version rest,
        BlockAt start name version rest ∧ pin.HasValues name version)
      ((fromEachLine s).filter StartsBlock) (pins s) ∧
    (∃ found, Finds true s found ∧ (∀ found', Finds true s found' → found' = found) ∧
      List.Forall₂ (fun captured pin ↦ pin.HasValues captured.1 captured.2) found (pins s)) ∧
    (∀ start name version rest, BlockAt start name version rest →
      (∀ name' version' rest', BlockAt start name' version' rest' →
        name' = name ∧ version' = version ∧ rest' = rest) ∧
      ∀ later ∈ laterLines start, StartsBlock later → later ∈ laterLines rest) ∧
    ∀ (pin pin' : Pin) (name version : Line),
      pin.HasValues name version → pin'.HasValues name version → pin' = pin := by
  simp only [Pin.hasValues_iff]
  refine ⟨pins_blockStarts s, ?_,
    fun start name version rest h ↦ ⟨fun _ _ _ ↦ h.unique, h.apart⟩, ?_⟩
  · obtain ⟨found, hfinds, hpins⟩ := exists_finds_pins s
    refine ⟨found, hfinds, fun found' ↦ hfinds.unique, ?_⟩
    rw [hpins, List.forall₂_map_right_iff]
    exact List.forall₂_same.2 fun _ _ ↦ rfl
  · rintro _ _ name version rfl rfl
    rfl

/-- In place of the state of the first block stands a line that names a package; before the state
of the second one there are only blank lines. -/
def twoBlocks : List Char :=
  linesText (["\t\"package\": \"a,b\",", "\"repositoryURL\": u,", "\"package\": \"c\",",
    " \"branch\": null,", "", "\"revision\": r,", "\"version\": \"1\" ", "\"package\":d,",
    "\"repositoryURL\":,", "", "\r", "\"branch\":,", "\"revision\":,", "\"version\":2,"].map
      String.toList)

theorem two_blocks_apart :
    pins twoBlocks = [⟨"a,b", "1"⟩, ⟨"d", "2"⟩] ∧
    ∃ start name version rest, BlockAt start name version rest ∧
      ∀ later ∈ laterLines start, StartsBlock later → later ∈ laterLines rest := by
  have hstarts : (fromEachLine twoBlocks).filter StartsBlock ≠ [] := by decide +kernel
  obtain ⟨start, hstart⟩ := List.exists_mem_of_ne_nil _ hstarts
  obtain ⟨name, version, rest, h⟩ : StartsBlock start := by simpa using (List.mem_filter.1 hstart).2
  have hlater := ((pins_of_blocks twoBlocks).2.2.1 start name version rest h).2
  exact ⟨by decide +kernel, start, name, version, rest, h, hlater⟩

end Lock

end SwiftInventory
