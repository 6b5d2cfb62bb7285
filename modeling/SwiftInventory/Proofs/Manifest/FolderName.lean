import SwiftInventory.Proofs.Contents
import SwiftInventory.Proofs.Manifest.Extraction
import SwiftInventory.Proofs.Scan.Builtin

namespace SwiftInventory

namespace FileTree

variable {t : FileTree} {p : Path} {l l' : Location} {part : Path.Part} {parts : List Path.Part}
  {e : Entry} {octets : List UInt8}

/-- The name of the entry at a location; the root folder has none. -/
def entryName (l : Location) : String := Path.name ⟨.absolute, l⟩

theorem entryName_concat (l : Location) (part : Path.Part) :
    entryName (l ++ [part]) = part.text := by
  simp [entryName, Path.name]

theorem entryName_ne_empty (h : l ≠ []) : entryName l ≠ "" := by
  obtain ⟨l, part, rfl⟩ := (List.eq_nil_or_concat' l).resolve_left h
  rw [entryName_concat]
  exact part.text_plain.1

theorem entryName_ne_dot (l : Location) : entryName l ≠ "." := by
  cases List.eq_nil_or_concat' l with
  | inl h =>
    rw [h]
    decide
  | inr h =>
    obtain ⟨l, part, rfl⟩ := h
    rw [entryName_concat]
    exact part.text_plain.2.1

theorem isBack_eq_false (h : t.entryAt? l = some e) : ∀ part ∈ l, part.isBack = false := by
  intro part hpart
  have hmem := mem_of_entryAt? (List.ne_nil_of_mem hpart) h
  exact (t.entries_held _ hmem).2.1 part hpart

theorem entryName_ne_back (h : t.entryAt? l = some e) : entryName l.dropLast ≠ ".." := by
  intro hname
  cases List.eq_nil_or_concat' l.dropLast with
  | inl hnil =>
    rw [hnil] at hname
    exact absurd hname (by decide)
  | inr hconcat =>
    obtain ⟨front, part, hfront⟩ := hconcat
    have hpart : part ∈ l := List.dropLast_subset l (by simp [hfront])
    have hback := isBack_eq_false h part hpart
    rw [hfront, entryName_concat] at hname
    rw [Path.Part.isBack, hname] at hback
    exact absurd hback (by decide)

theorem step_eq_ok :
    t.step l part = .ok l' ↔ t.entryAt? l = some .folder ∧
      (part.isBack = true ∧ l' = l.dropLast ∨
        part.isBack = false ∧ part.isTooLong = false ∧ l' = l ++ [part]) := by
  rw [step]
  split <;> rename_i h <;> rw [h]
  · simp
  · simp
  · cases part.isBack <;> cases part.isTooLong <;> simp [eq_comm]

theorem step_of_not_isBack (hstep : t.step l part = .ok l') (hback : part.isBack = false) :
    l' = l ++ [part] := by
  obtain ⟨-, hb | ⟨-, -, hl'⟩⟩ := step_eq_ok.1 hstep
  · rw [hback] at hb
    exact absurd hb.1 Bool.false_ne_true
  · exact hl'

/-- A double dot leads to a folder, so that a file is come to by its own name. -/
theorem step_to_file (hstep : t.step l part = .ok l')
    (hfile : t.entryAt? l' = some (.file octets)) : l' = l ++ [part] := by
  obtain ⟨hfolder, ⟨-, rfl⟩ | ⟨-, -, hl'⟩⟩ := step_eq_ok.1 hstep
  · exfalso
    by_cases hl : l = []
    · rw [hl] at hfile
      cases hfile
    · have haround := (t.entries_held _ (mem_of_entryAt? hl hfolder)).2.2
      cases haround with
      | inl hroot =>
        have hroot : l.dropLast = [] := hroot
        rw [hroot] at hfile
        cases hfile
      | inr hmem => cases hfile.symm.trans (entryAt?_of_mem hmem)
  · exact hl'

theorem walk_concat (h : (parts ++ [part]).foldlM t.step l = .ok l') :
    ∃ l₀, parts.foldlM t.step l = .ok l₀ ∧ t.step l₀ part = .ok l' := by
  rw [List.foldlM_append] at h
  cases hfront : parts.foldlM t.step l with
  | error fault =>
    rw [hfront] at h
    cases h
  | ok l₀ =>
    rw [hfront] at h
    refine ⟨l₀, rfl, ?_⟩
    cases hstep : t.step l₀ part <;> simp_all [bind, Except.bind, pure, Except.pure]

/-- Where a walk ends and how its way is written have one name, unless a double dot comes last. -/
theorem entryName_of_walk (h : parts.foldlM t.step l = .ok l') :
    entryName (l ++ parts) = if entryName parts = ".." then ".." else entryName l' := by
  cases List.eq_nil_or_concat' parts with
  | inl hnil =>
    rw [hnil] at h ⊢
    cases h
    rw [List.append_nil, if_neg (by decide)]
  | inr hconcat =>
    obtain ⟨front, part, rfl⟩ := hconcat
    rw [← List.append_assoc, entryName_concat, entryName_concat]
    split <;> rename_i hback
    · exact hback
    · obtain ⟨l₀, -, hstep⟩ := walk_concat h
      have hback : part.isBack = false := by simpa [Path.Part.isBack] using hback
      rw [step_of_not_isBack hstep hback, entryName_concat]

theorem walk_of_locate (h : t.locate p = .ok l) : p.parts.foldlM t.step (t.start p) = .ok l := by
  rw [locate] at h
  split at h
  · cases h
  · split at h
    · cases h
    · exact h

theorem folderName_eq (t : FileTree) (p : Path) :
    p.folderName t.current = entryName (t.start p ++ p.parts).dropLast := by
  rw [Path.folderName, Path.absoluteFrom, start]
  split <;> rfl

/-- The name in the written path is that of the folder around the file, unless it is a double
dot. -/
theorem folderName_of_file (hl : t.locate p = .ok l) (hfile : t.entryAt? l = some (.file octets)) :
    p.folderName t.current = if p.parent.name = ".." then ".." else entryName l.dropLast := by
  have hparent : p.parent.name = entryName p.parts.dropLast := rfl
  have hwalk := walk_of_locate hl
  rw [folderName_eq, hparent]
  cases List.eq_nil_or_concat' p.parts with
  | inl hnil =>
    rw [hnil] at hwalk ⊢
    cases hwalk
    rw [List.append_nil, List.dropLast_nil, if_neg (by decide)]
  | inr hconcat =>
    obtain ⟨front, part, hfront⟩ := hconcat
    rw [hfront] at hwalk
    obtain ⟨l₀, hfolder, hstep⟩ := walk_concat hwalk
    rw [hfront, ← List.append_assoc, List.dropLast_concat, List.dropLast_concat,
      entryName_of_walk hfolder, step_to_file hstep hfile, List.dropLast_concat]

end FileTree

namespace Manifest

variable {t : FileTree} {l : Location} {r : Record} {contents : String} {arguments : List Char}
  {octets : List UInt8}

theorem name_of_nameless (h : description? contents.toList = some arguments) (hne : arguments ≠ [])
    (hname : declaredName arguments = "") (current : Location) :
    ∃ r' found, extract current r contents = (r', .ok found) ∧ found.namedAfterFolder = true ∧
      r'.name = some (r.actualFile.folderName current) := by
  have hslashes : ¬ IsSlashes (declaredName arguments).toList := by
    rw [hname]
    decide
  have hfolder : packageName current r.actualFile arguments = r.actualFile.folderName current := by
    rw [packageName, hname]
    rfl
  obtain ⟨r', found, hx⟩ : ∃ r' found, extract current r contents = (r', .ok found) :=
    (extract_returns h hne).2 fun hs ↦ hslashes hs.1
  refine ⟨r', found, hx, ?_⟩
  rw [extract_of_arguments h hne] at hx
  split at hx
  · cases hx
  · obtain ⟨rfl, hfound⟩ := Prod.mk.inj hx
    cases hfound
    refine ⟨by rw [hname]; rfl, ?_⟩
    rw [Record.addIdentifier_eq]
    exact congrArg some hfolder

/-- A package whose manifest has arguments but no name in them is always described, and called after
the folder that its file is in, unless a double dot is written right before the file name: then it
is called by these dots. -/
theorem called_after_folder_iff (hl : t.locate r.actualFile = .ok l)
    (hfile : t.entryAt? l = some (.file octets))
    (h : description? contents.toList = some arguments) (hne : arguments ≠ [])
    (hname : declaredName arguments = "") :
    ∃ r' found name, extract t.current r contents = (r', .ok found) ∧
      found.namedAfterFolder = true ∧ r'.name = some name ∧
      (name = FileTree.entryName l.dropLast ↔ r.actualFile.parent.name ≠ "..") ∧
      (name = ".." ↔ r.actualFile.parent.name = "..") ∧
      name ≠ "." ∧ (l.dropLast ≠ [] → name ≠ "") := by
  obtain ⟨r', found, hx, hfound, hnamed⟩ := name_of_nameless h hne hname t.current
  refine ⟨r', found, _, hx, hfound, hnamed, ?_⟩
  rw [FileTree.folderName_of_file hl hfile]
  have hback := FileTree.entryName_ne_back hfile
  split <;> rename_i hparent
  · exact ⟨iff_of_false hback.symm (not_not.2 hparent), iff_of_true rfl hparent, by decide,
      fun _ ↦ by decide⟩
  · exact ⟨iff_of_true rfl hparent, iff_of_false hback hparent, FileTree.entryName_ne_dot _,
      FileTree.entryName_ne_empty⟩

def namelessText : String := "let package = Package(targets: [])"

def demoTree : FileTree := .ofTexts [("Demo/Package.swift", namelessText), ("Demo/Sources/a", "")]

def demoFile : Location :=
  (Path.ofString "Demo/Package.swift").parts

theorem called_demo :
    ∃ r' found, extract demoTree.current
        (.ofFile (.ofString "Demo/Sources/../../Demo/Package.swift") false) namelessText =
          (r', .ok found) ∧
      found.namedAfterFolder = true ∧ r'.name = some "Demo" := by
  have hl : demoTree.locate (.ofString "Demo/Sources/../../Demo/Package.swift") = .ok demoFile := by
    decide +kernel
  have hfile : demoTree.entryAt? demoFile =
      some (.file (Text.Utf8.encode namelessText.toList)) := by
    decide +kernel
  have hd : description? namelessText.toList = some "targets: []".toList := by decide +kernel
  obtain ⟨r', found, name, hx, hfound, hname, hfolder, -⟩ :=
    called_after_folder_iff (r := .ofFile (.ofString "Demo/Sources/../../Demo/Package.swift") false)
      hl hfile hd (by decide) (by decide +kernel)
  refine ⟨r', found, hx, hfound, ?_⟩
  rw [hname, hfolder.2 (by decide +kernel)]
  decide +kernel

/-- The file is in the folder `Demo`, and its package is called by two dots. -/
theorem called_by_dots :
    demoTree.locate (.ofString "Demo/Sources/../Package.swift") = .ok demoFile ∧
    demoTree.entryAt? demoFile = some (.file (Text.Utf8.encode namelessText.toList)) ∧
    FileTree.entryName demoFile.dropLast = "Demo" ∧
    description? namelessText.toList = some "targets: []".toList ∧
    declaredName "targets: []".toList = "" ∧
    (extract demoTree.current (.ofFile (.ofString "Demo/Sources/../Package.swift") false)
      namelessText).2 = .ok ⟨true, true, true, false⟩ ∧
    (extract demoTree.current (.ofFile (.ofString "Demo/Sources/../Package.swift") false)
      namelessText).1.name = some ".." := by
  decide +kernel

end Manifest

end SwiftInventory
