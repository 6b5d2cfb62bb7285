import SwiftInventory.Manifest.Reading
import SwiftInventory.Proofs.Escaping
import SwiftInventory.Report.Console

namespace SwiftInventory

open Markup

variable {s t : List Char}

/-- No text of a record holds a tag that takes effect. The identifiers are read as one text. -/
structure Record.IsHarmless (r : Record) : Prop where
  package : ∀ text ∈ (nonEmpty? r.name).or (nonEmpty? r.displayName), IsLiteral text.toList
  version : ∀ text ∈ r.version, IsLiteral text.toList
  ecosystem : ∀ text ∈ r.ecosystem, IsLiteral text.toList
  identifiers : IsLiteral (", ".intercalate (r.identifiers.map (·.value))).toList
  source : IsLiteral r.filePath.toString.toList

namespace Report

/-- Neither does the message end a tag that begins in the path, nor do backslashes at its end keep
the last tag from taking effect. -/
structure Failure.IsHarmless (f : Failure) : Prop where
  apart : ¬ (LeavesTagOpen f.path.toString.toList ∧ nextBracket? f.message.toList = some ']')
  ends : slashesAtEnd f.message.toList = 1 ∨ Even (slashesAtEnd f.message.toList)

/-- The first and the last tag of a line are the only ones that take effect. -/
def IsFramed (line : List Char) : Prop :=
  ∃ body, line = "[red]".toList ++ body ++ "[/red]".toList ∧
    ∀ before rest, line = before ++ '[' :: rest → OpensTag rest →
      (Even (slashesAtEnd before) ↔ before = [] ∨ rest = "/red]".toList)

/-- The texts of a block show nothing but themselves. A line has tags of its own around it. -/
def Block.ShowsLiterally : Block → Prop
  | panel content title _ _ => IsLiteral content.toList ∧ ∀ text ∈ title, IsLiteral text.toList
  | table title columns => IsLiteral title.toList ∧ ∀ column ∈ columns,
      IsLiteral column.header.toList ∧ ∀ cell ∈ column.cells, IsLiteral cell.toList
  | markup line => IsFramed line.toList

end Report

theorem bracket_not_mem_digits (n : Nat) : '[' ∉ Number.digits n :=
  fun h ↦ absurd (Nat.isDigit_of_mem_toDigits (by decide) (by decide) h) (by decide)

theorem bracket_not_mem_sign (negative : Bool) : '[' ∉ Number.sign negative := by
  cases negative <;> decide

theorem bracket_not_mem_textToHundredths (x : Double) : '[' ∉ x.textToHundredths := by
  cases x with
  | finite x =>
    simp [Double.textToHundredths, FiniteDouble.textToHundredths, bracket_not_mem_digits,
      bracket_not_mem_sign, List.mem_replicate]
  | infinite negative => simp [Double.textToHundredths, bracket_not_mem_sign]
  | notANumber => simp [Double.textToHundredths]

namespace Report

theorem bracket_not_mem_summaryText (records : List Record) (failures : List Failure)
    (scanTime : Double) : '[' ∉ (summaryText records failures scanTime).toList := by
  have hcount (n : Nat) : '[' ∉ Nat.toDigits 10 n := bracket_not_mem_digits n
  simp [summaryText, hcount, bracket_not_mem_textToHundredths]

theorem summary_showsLiterally (records : List Record) (failures : List Failure)
    (scanTime : Double) : (summary records failures scanTime).ShowsLiterally := by
  refine ⟨isLiteral_of_not_mem (bracket_not_mem_summaryText records failures scanTime), ?_⟩
  intro text h
  rw [← Option.some.inj h]
  exact isLiteral_of_not_mem (by decide)

theorem isFramed_iff (body : List Char) :
    IsFramed ("[red]".toList ++ body ++ "[/red]".toList) ↔
      ∀ o ∈ openings 0 ("red]".toList ++ body ++ "[/red]".toList), OpensTag o.2 →
        (Even o.1 ↔ o.2 = "/red]".toList) := by
  have hline : "[red]".toList ++ body ++ "[/red]".toList =
      '[' :: ("red]".toList ++ body ++ "[/red]".toList) := by simp
  have hslashes (before : List Char) : slashesAtEnd ('[' :: before) = slashesAfter 0 before :=
    slashesAtEnd_eq _
  constructor
  · rintro ⟨-, -, h⟩ ⟨n, rest⟩ ho htag
    obtain ⟨before, hs, rfl⟩ := mem_openings.1 ho
    have hacts := h ('[' :: before) rest (by rw [hline, hs]; rfl) htag
    rwa [hslashes, or_iff_right (List.cons_ne_nil _ _)] at hacts
  · intro h
    refine ⟨body, rfl, ?_⟩
    intro before rest hs htag
    rw [hline] at hs
    cases before with
    | nil => simp [slashesAtEnd]
    | cons b before =>
      obtain ⟨rfl, hs'⟩ := List.cons.inj hs
      rw [hslashes, or_iff_right (List.cons_ne_nil _ _)]
      exact h (_, rest) (mem_openings.2 ⟨before, hs', rfl⟩) htag

theorem openings_line (path message : List Char) :
    openings 0 ("red]".toList ++ ("✗ ".toList ++ path ++ ": ".toList ++ message) ++
        "[/red]".toList) =
      (openings 0 path).map (fun o ↦ (o.1, o.2 ++ (": ".toList ++ message ++ "[/red]".toList))) ++
        ((openings 0 message).map (fun o ↦ (o.1, o.2 ++ "[/red]".toList)) ++
          [(slashesAtEnd message, "/red]".toList)]) := by
  have hcolon (k : Nat) : slashesAfter k ": ".toList = 0 ∧ openings k ": ".toList = [] := by
    simp [slashesAfter, openings]
  have hlast (k : Nat) : openings k "[/red]".toList = [(k, "/red]".toList)] := by
    simp [openings]
  have hfirst : slashesAfter 0 ("red]".toList ++ "✗ ".toList) = 0 ∧
      openings 0 ("red]".toList ++ "✗ ".toList) = [] := by
    simp [slashesAfter, openings]
  -- No backslash stands right before a piece, but for those at the end of the message.
  simp only [← List.append_assoc]
  simp only [openings_append, hfirst, hcolon, hlast]
  simp only [slashesAfter_append, hcolon, slashesAtEnd_eq]
  simp

theorem even_iff_last (h : "/red]".toList.length < t.length) {n : Nat} :
    (Even n ↔ s ++ t = "/red]".toList) ↔ Odd n := by
  have hne : s ++ t ≠ "/red]".toList := fun heq ↦ by
    have hlength := congrArg List.length heq
    rw [List.length_append] at hlength
    omega
  rw [iff_false_right hne, Nat.not_even_iff_odd]

theorem nextBracket?_behind_path (message : String) :
    nextBracket? (": ".toList ++ (escape message).toList ++ "[/red]".toList) = some ']' ↔
      nextBracket? message.toList = some ']' := by
  have hcolon : nextBracket? ": ".toList = none := by decide
  have hlast : nextBracket? "[/red]".toList = some '[' := by decide
  rw [nextBracket?_append, nextBracket?_append, nextBracket?_escape, hcolon, hlast,
    Option.none_or]
  cases nextBracket? message.toList <;> simp

theorem odd_openings_message (message : String) :
    ∀ o ∈ openings 0 (escape message).toList, OpensTag (o.2 ++ "[/red]".toList) → Odd o.1 := by
  have hopen : nextBracket? "[/red]".toList ≠ some ']' := by decide
  exact (odd_openings_escape message (by rfl)).2 fun hand ↦ hopen hand.2

/-- The tags of a line that are not its own come from its texts, and only one that begins in the
first and ends in the second takes effect. -/
theorem failureLine_showsLiterally_iff (f : Failure) :
    (failureLine f).ShowsLiterally ↔ f.IsHarmless := by
  let tail := ": ".toList ++ (escape f.message).toList ++ "[/red]".toList
  have hline : ("[red]✗ " ++ escape f.path.toString ++ ": " ++ escape f.message ++
      "[/red]").toList = "[red]".toList ++ ("✗ ".toList ++ (escape f.path.toString).toList ++
        ": ".toList ++ (escape f.message).toList) ++ "[/red]".toList := by simp
  have hpath : (∀ o ∈ openings 0 (escape f.path.toString).toList, OpensTag (o.2 ++ tail) →
      Odd o.1) ↔
        ¬ (LeavesTagOpen f.path.toString.toList ∧ nextBracket? f.message.toList = some ']') := by
    rw [odd_openings_escape _ (by rfl), nextBracket?_behind_path]
  have hlast : OpensTag "/red]".toList := by decide
  rw [failureLine, Block.ShowsLiterally, hline, isFramed_iff, openings_line]
  simp only [List.forall_mem_append, List.forall_mem_map, List.forall_mem_singleton]
  constructor
  · intro h
    refine ⟨hpath.1 fun o ho htag ↦ ?_, ?_⟩
    · exact (even_iff_last (by simp)).1 (h.1 o ho htag)
    · exact even_slashesAtEnd_escape.1 ((h.2.2 hlast).2 trivial)
  · intro h
    refine ⟨fun o ho htag ↦ ?_, fun o ho htag ↦ ?_, fun _ ↦ ?_⟩
    · exact (even_iff_last (by simp)).2 (hpath.2 h.apart o ho htag)
    · exact (even_iff_last (by decide)).2 (odd_openings_message f.message o ho htag)
    · exact iff_of_true (even_slashesAtEnd_escape.2 h.ends) trivial

theorem isLiteral_firstOf {texts : List (Option String)} {otherwise : String}
    (h : '[' ∉ otherwise.toList) : IsLiteral (firstOf texts otherwise).toList ↔
      ∀ text ∈ texts.findSome? nonEmpty?, IsLiteral text.toList := by
  rw [firstOf]
  cases texts.findSome? nonEmpty? with
  | none => simpa using isLiteral_of_not_mem h
  | some text => simp

theorem isLiteral_nonEmpty? {text? : Option String} :
    (∀ text ∈ nonEmpty? text?, IsLiteral text.toList) ↔
      ∀ text ∈ text?, IsLiteral text.toList := by
  cases text? with
  | none => rfl
  | some text =>
    by_cases h : text = ""
    · subst h
      simp [nonEmpty?, isLiteral_of_not_mem]
    · simp [nonEmpty?, h]

theorem isLiteral_cells_iff (r : Record) :
    (IsLiteral (packageCell r).toList ∧ IsLiteral (versionCell r).toList ∧
      IsLiteral (r.ecosystem.getD "").toList ∧ IsLiteral (identifierCell r).toList ∧
      IsLiteral r.filePath.toString.toList) ↔ r.IsHarmless := by
  have hpackage : IsLiteral (packageCell r).toList ↔
      ∀ text ∈ (nonEmpty? r.name).or (nonEmpty? r.displayName), IsLiteral text.toList := by
    have hfirst : [r.name, r.displayName].findSome? nonEmpty? =
        (nonEmpty? r.name).or (nonEmpty? r.displayName) := by
      rw [List.findSome?_cons, List.findSome?_singleton]
      cases nonEmpty? r.name <;> rfl
    rw [packageCell, isLiteral_firstOf (by decide), hfirst]
  have hversion : IsLiteral (versionCell r).toList ↔
      ∀ text ∈ r.version, IsLiteral text.toList := by
    rw [versionCell, isLiteral_firstOf (by decide), List.findSome?_singleton,
      isLiteral_nonEmpty?]
  have hecosystem : IsLiteral (r.ecosystem.getD "").toList ↔
      ∀ text ∈ r.ecosystem, IsLiteral text.toList := by
    cases r.ecosystem with
    | none => simp [isLiteral_of_not_mem]
    | some text => simp
  have hidentifiers : IsLiteral (identifierCell r).toList ↔
      IsLiteral (", ".intercalate (r.identifiers.map (·.value))).toList := by
    rw [identifierCell, isLiteral_firstOf (by decide), List.findSome?_singleton,
      isLiteral_nonEmpty?]
    simp
  rw [hpackage, hversion, hecosystem, hidentifiers]
  exact ⟨fun h ↦ ⟨h.1, h.2.1, h.2.2.1, h.2.2.2.1, h.2.2.2.2⟩,
    fun h ↦ ⟨h.package, h.version, h.ecosystem, h.identifiers, h.source⟩⟩

theorem packageTable_showsLiterally_iff (records : List Record) :
    (packageTable records).ShowsLiterally ↔ ∀ r ∈ records, r.IsHarmless := by
  have hfixed : IsLiteral "Swift Packages".toList ∧ IsLiteral "Package".toList ∧
      IsLiteral "Version".toList ∧ IsLiteral "Ecosystem".toList ∧ IsLiteral "Identifier".toList ∧
      IsLiteral "Source".toList := by
    refine ⟨?_, ?_, ?_, ?_, ?_, ?_⟩ <;> exact isLiteral_of_not_mem (by decide)
  obtain ⟨htitle, hpackage, hversion, hecosystem, hidentifier, hsource⟩ := hfixed
  simp only [packageTable, Block.ShowsLiterally, ← isLiteral_cells_iff, List.forall_mem_cons,
    List.forall_mem_map, htitle, hpackage, hversion, hecosystem, hidentifier, hsource, true_and,
    forall_and]
  simp

/-- Of all that a report shows, the texts of the records are taken for markup as they stand, and the
lines of the failures can be misled in two ways. -/
theorem toBlocks_showLiterally_iff (records : List Record) (failures : List Failure)
    (scanTime : Double) :
    (∀ block ∈ toBlocks records failures scanTime, block.ShowsLiterally) ↔
      (∀ r ∈ records, r.IsHarmless) ∧ ∀ f ∈ failures, f.IsHarmless := by
  have hmiddle : (if records.isEmpty then nothingFound else packageTable records).ShowsLiterally ↔
      ∀ r ∈ records, r.IsHarmless := by
    cases records with
    | nil =>
      have hnothing : nothingFound.ShowsLiterally :=
        ⟨isLiteral_of_not_mem (by decide), fun _ h ↦ nomatch h⟩
      exact iff_of_true hnothing fun _ h ↦ nomatch h
    | cons r records => exact packageTable_showsLiterally_iff (r :: records)
  have hlines : (∀ block ∈ failures.map failureLine, block.ShowsLiterally) ↔
      ∀ f ∈ failures, f.IsHarmless := by
    rw [List.forall_mem_map]
    exact forall₂_congr fun f _ ↦ failureLine_showsLiterally_iff f
  rw [toBlocks, List.forall_mem_cons, List.forall_mem_cons, hmiddle, hlines]
  exact and_iff_right (summary_showsLiterally records failures scanTime)

/-- A package whose name holds a tag, a tag that begins in a path and ends in a message, and three
backslashes at the end of a message. -/
theorem texts_taken_for_markup :
    let r := (Manifest.extract [] (.ofFile (.ofString "Package.swift") false)
      "let package = Package(name: \"[b]Gloss\")").1
    let across : Failure := ⟨.ofString "[a/Package.swift", "x]"⟩
    let slashed : Failure := ⟨.ofString "a", "\\\\\\"⟩
    r.name = some "[b]Gloss" ∧ ¬ (∀ block ∈ toBlocks [r] [] .zero, block.ShowsLiterally) ∧
      ¬ (∀ block ∈ toBlocks [] [across] .zero, block.ShowsLiterally) ∧
      ¬ (∀ block ∈ toBlocks [] [slashed] .zero, block.ShowsLiterally) := by
  intro r across slashed
  have hname : r.name = some "[b]Gloss" := by decide +kernel
  refine ⟨hname, fun h ↦ ?_, fun h ↦ ?_, fun h ↦ ?_⟩
  · have htable : (packageTable [r]).ShowsLiterally := h _ (.tail _ (.head _))
    have hr := (packageTable_showsLiterally_iff [r]).1 htable r List.mem_cons_self
    have hliteral := hr.package "[b]Gloss" (by rw [hname]; rfl)
    exact absurd (hliteral [] "b]Gloss".toList (by decide) (by decide)) (by decide)
  · have hacross := (failureLine_showsLiterally_iff across).1 (h _ (.tail _ (.tail _ (.head _))))
    have hopen : LeavesTagOpen across.path.toString.toList :=
      ⟨[], "a/Package.swift".toList, by decide +kernel, by decide, by decide, by decide⟩
    exact hacross.apart ⟨hopen, by decide⟩
  · have hslashed := (failureLine_showsLiterally_iff slashed).1 (h _ (.tail _ (.tail _ (.head _))))
    exact absurd hslashed.ends (by decide)

end Report

end SwiftInventory
