import Mathlib.Data.List.Basic
import SwiftInventory.Manifest.Reading
import SwiftInventory.Proofs.Identification
import SwiftInventory.Proofs.WrittenPath

namespace SwiftInventory

theorem Record.addIdentifier_eq (r : Record) (i : Identifier) :
    r.addIdentifier i = { r with
      identifiers := if r.identifiers.contains i then r.identifiers else r.identifiers ++ [i] } := by
  rw [addIdentifier]
  split <;> rfl

theorem Record.mem_addIdentifier (r : Record) (i : Identifier) :
    i ∈ (r.addIdentifier i).identifiers := by
  rw [addIdentifier]
  split <;> rename_i h
  · simpa using h
  · simp

namespace Manifest

variable {current : Location} {r : Record} {contents : String} {arguments : List Char}

def declaredName (arguments : List Char) : String :=
  String.ofList (Field.read "name".toList arguments)

/-- The declared name, or else the name of the folder in the path of the file. -/
def packageName (current : Location) (file : Path) (arguments : List Char) : String :=
  if (declaredName arguments).isEmpty then file.folderName current else declaredName arguments

def nameEvidence (name : String) : List Evidence :=
  if name.isEmpty then [] else
    [⟨.product, fileName, "name", name, .highest⟩,
      ⟨.vendor, fileName, "name_project", name, .highest⟩]

def named (current : Location) (r : Record) (arguments : List Char) : Record :=
  let name := packageName current r.actualFile arguments
  { r with
    ecosystem := some ecosystem
    name := some name
    displayName := some (displayName name r.version)
    evidence := r.evidence ++ nameEvidence (declaredName arguments) }

theorem extract_of_none (h : description? contents.toList = none) :
    extract current r contents =
      ({ r with ecosystem := some ecosystem }, .ok ⟨false, false, false, false⟩) := by
  simp [extract, h]

theorem extract_of_blank (h : description? contents.toList = some []) :
    extract current r contents =
      ({ r with ecosystem := some ecosystem }, .ok ⟨true, false, false, false⟩) := by
  simp [extract, h]

theorem readField_namePlace :
    r.readField "name" (String.ofList arguments) (some namePlace) =
      (declaredName arguments, if (declaredName arguments).isEmpty then r else
        r.addEvidence ⟨.product, fileName, "name", declaredName arguments, .highest⟩) := by
  have hsource : nonEmpty? (some fileName) = some fileName := by decide
  have hname : nonEmpty? (some "name") = some "name" := by decide
  by_cases h : (declaredName arguments).isEmpty = true
  · rw [if_pos h]
    simp only [Record.readField, namePlace, String.toList_ofList]
    exact if_pos h
  · rw [if_neg h]
    simp only [Record.readField, namePlace, String.toList_ofList, hsource, hname]
    exact if_neg h

theorem nameRecord_eq :
    nameRecord current r (String.ofList arguments) =
      ((declaredName arguments).isEmpty, { r with
        name := some (packageName current r.actualFile arguments)
        evidence := r.evidence ++ nameEvidence (declaredName arguments) }) := by
  simp only [nameRecord, readField_namePlace, packageName, nameEvidence]
  cases (declaredName arguments).isEmpty with
  | true => simp
  | false => simp [Record.addEvidence]

theorem extract_of_arguments (h : description? contents.toList = some arguments)
    (hne : arguments ≠ []) :
    extract current r contents =
      match Identifier.ofCoordinates (some ecosystem)
        (some (packageName current r.actualFile arguments)) (nonEmpty? r.version) .highest with
      | .error fault => (named current r arguments, .error fault)
      | .ok i =>
        ({ (named current r arguments).addIdentifier i with
            packagePath := r.filePath.parentText?.or r.packagePath },
          .ok ⟨true, true, (declaredName arguments).isEmpty, i.isFallback⟩) := by
  obtain ⟨c, rest, rfl⟩ := List.exists_cons_of_ne_nil hne
  simp only [extract, h, nameRecord_eq, Option.getD_some]
  cases Identifier.ofCoordinates (some ecosystem)
    (some (packageName current r.actualFile (c :: rest))) (nonEmpty? r.version) .highest with
  | error fault => rfl
  | ok i =>
    simp only [named, Record.addIdentifier_eq]
    cases r.filePath.parentText? <;> rfl

theorem extract_keeps (current : Location) (r : Record) (contents : String) :
    (extract current r contents).1.filePath = r.filePath ∧
    (extract current r contents).1.actualFile = r.actualFile ∧
    (extract current r contents).1.isVirtual = r.isVirtual ∧
    (extract current r contents).1.version = r.version ∧
    (extract current r contents).1.checksums = r.checksums := by
  cases h : description? contents.toList with
  | none => simp [extract_of_none h]
  | some arguments =>
    by_cases hne : arguments = []
    · rw [hne] at h
      simp [extract_of_blank h]
    · rw [extract_of_arguments h hne]
      split <;> simp [named, Record.addIdentifier_eq]

def IsFaulty (contents : String) : Prop :=
  ∃ arguments ∈ description? contents.toList, IsSlashes (declaredName arguments).toList

/-- A folder has no name of slashes, so only a declared name can be one. -/
theorem isSlashes_packageName {file : Path} :
    IsSlashes (packageName current file arguments).toList ↔
      IsSlashes (declaredName arguments).toList := by
  rw [packageName]
  split <;> rename_i h
  · have hempty : (declaredName arguments).toList = [] := by simpa using h
    rw [hempty]
    refine iff_of_false (fun hs ↦ ?_) fun hs ↦ hs.1 rfl
    obtain ⟨c, hc⟩ := List.exists_mem_of_ne_nil _ hs.1
    have hslash := hs.2 c hc
    rw [hslash] at hc
    exact Path.slash_not_mem_name _ hc
  · rfl

theorem packageName_of_declared {file : Path} (h : (declaredName arguments).isEmpty = false) :
    packageName current file arguments = declaredName arguments := by
  rw [packageName, h, if_neg Bool.false_ne_true]

theorem packageName_of_isSlashes {file : Path} (h : IsSlashes (declaredName arguments).toList) :
    packageName current file arguments = declaredName arguments :=
  packageName_of_declared (by simpa using h.1)

/-- A name of slashes keeps a package from being identified, unless its version rules a package URL
out before the name comes to matter. -/
theorem extract_eq_error_of_arguments (h : description? contents.toList = some arguments)
    (hne : arguments ≠ []) {e : SlashesOnly} :
    (extract current r contents).2 = .error e ↔
      e = ⟨declaredName arguments⟩ ∧ IsSlashes (declaredName arguments).toList ∧
        ∀ v ∈ nonEmpty? r.version, PackageUrl.isCoordinate v.toList = true := by
  have hswift : PackageUrl.isEcosystem ecosystem.toList = true := by decide
  have hfault : (extract current r contents).2 = .error e ↔
      Identifier.ofCoordinates (some ecosystem)
        (some (packageName current r.actualFile arguments)) (nonEmpty? r.version) .highest =
          .error e := by
    rw [extract_of_arguments h hne]
    split <;> simp_all
  rw [hfault, Identifier.ofCoordinates_eq_error, isSlashes_packageName]
  simp only [hswift, true_and]
  constructor
  · rintro ⟨rfl, hs, hv⟩
    exact ⟨by rw [packageName_of_isSlashes hs], hs, hv⟩
  · rintro ⟨rfl, hs, hv⟩
    exact ⟨by rw [packageName_of_isSlashes hs], hs, hv⟩

theorem extract_returns (h : description? contents.toList = some arguments) (hne : arguments ≠ []) :
    (∃ r' found, extract current r contents = (r', .ok found)) ↔
      ¬ (IsSlashes (declaredName arguments).toList ∧
        ∀ v ∈ nonEmpty? r.version, PackageUrl.isCoordinate v.toList = true) := by
  cases hx : (extract current r contents).2 with
  | error e =>
    have he := (extract_eq_error_of_arguments h hne).1 hx
    refine iff_of_false ?_ (not_not.2 he.2)
    rintro ⟨r', found, hr⟩
    simp [hr] at hx
  | ok found =>
    refine iff_of_true ⟨_, found, Prod.ext rfl hx⟩ fun hs ↦ ?_
    have he : (extract current r contents).2 = .error ⟨declaredName arguments⟩ :=
      (extract_eq_error_of_arguments h hne).2 ⟨rfl, hs⟩
    rw [hx] at he
    cases he

theorem extract_eq_error (hv : r.version = none) {e : SlashesOnly} :
    (extract current r contents).2 = .error e ↔
      ∃ arguments ∈ description? contents.toList,
        IsSlashes (declaredName arguments).toList ∧ e = ⟨declaredName arguments⟩ := by
  have hnone : nonEmpty? r.version = none := by rw [hv]; rfl
  cases h : description? contents.toList with
  | none => simp [extract_of_none h]
  | some arguments =>
    by_cases hne : arguments = []
    · have hempty : ¬ IsSlashes (declaredName []).toList := by decide
      rw [hne] at h
      simp [extract_of_blank h, hne, hempty]
    · simp [extract_eq_error_of_arguments h hne, hnone, and_comm]

/-- Either there is no package to describe, or the record gets a name and an identifier. -/
theorem extract_eq_ok {r' : Record} {found : Findings}
    (h : extract current r contents = (r', .ok found)) :
    ((description? contents.toList = none ∨ description? contents.toList = some []) ∧
      r' = { r with ecosystem := some ecosystem }) ∨
    ∃ arguments ∈ description? contents.toList, arguments ≠ [] ∧ ∃ i,
      r' = { (named current r arguments).addIdentifier i with
        packagePath := r.filePath.parentText?.or r.packagePath } := by
  cases hd : description? contents.toList with
  | none =>
    rw [extract_of_none hd, Prod.mk.injEq] at h
    exact .inl ⟨.inl rfl, h.1.symm⟩
  | some arguments =>
    by_cases hne : arguments = []
    · rw [hne] at hd ⊢
      rw [extract_of_blank hd, Prod.mk.injEq] at h
      exact .inl ⟨.inr rfl, h.1.symm⟩
    · rw [extract_of_arguments hd hne] at h
      split at h
      · cases h
      · rw [Prod.mk.injEq] at h
        exact .inr ⟨arguments, rfl, hne, _, h.1.symm⟩

theorem packageName_ne_empty {file : Path} (h : file.folderName current ≠ "") :
    packageName current file arguments ≠ "" := by
  rw [packageName]
  split <;> rename_i hd
  · exact h
  · simpa using hd

end Manifest

end SwiftInventory
