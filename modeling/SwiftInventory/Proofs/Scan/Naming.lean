import SwiftInventory.Proofs.Lock.Extraction
import SwiftInventory.Proofs.Lock.Leftmost
import SwiftInventory.Proofs.Manifest.Repetition
import SwiftInventory.Proofs.Scan.Builtin

namespace SwiftInventory

namespace Record

variable (t : FileTree) (config : ScanConfig) (paths : List Path) (r : Record)

/-- The record of a manifest that describes no package. -/
def IsPlaceholder : Prop :=
  r.filePath ∈ paths ∧ r.filePath.name = "Package.swift" ∧
    (∃ contents, t.contents config r.filePath = .ok contents ∧
      Manifest.DeclaresNothing contents.toList) ∧
    r = {
      filePath := r.filePath
      actualFile := r.filePath
      ecosystem := some "swift"
      name := none
      version := none
      packagePath := none
      displayName := some r.filePath.name
      identifiers := []
      evidence := []
      checksums := none
      isVirtual := false }

/-- The record of a manifest that describes a package. The folder can stand in for a name. -/
def IsPackage : Prop :=
  r.filePath ∈ paths ∧ r.filePath.name = "Package.swift" ∧ r.isVirtual = false ∧
    (∃ contents, t.contents config r.filePath = .ok contents ∧
      ¬ Manifest.DeclaresNothing contents.toList) ∧
    r.ecosystem = some "swift" ∧ (∃ i, r.identifiers = [i]) ∧
    ∃ name, r.name = some name ∧ (r.filePath.folderName t.current ≠ "" → name ≠ "")

/-- The record of one block of a lock file. It has the name that is written there. -/
def IsPinned : Prop :=
  r.filePath ∈ paths ∧ r.filePath.name = "Package.resolved" ∧ r.isVirtual = true ∧
    (∃ contents, t.contents config r.filePath = .ok contents ∧
      ∃ start ∈ Lock.fromEachLine contents.toList, ∃ name version rest,
        Lock.BlockAt start name version rest ∧
          ∃ pin : Lock.Pin, pin.HasValues name version ∧ r.name = some pin.name) ∧
    r.ecosystem = some "swift" ∧ ∃ i, r.identifiers = [i]

end Record

variable {t : FileTree} {config : ScanConfig} {paths : List Path} {p : Path}

theorem isPlaceholder_or_isPackage {contents : String} {r : Record} {found : Manifest.Findings}
    (hp : p ∈ paths) (hname : p.name = "Package.swift")
    (hc : t.contents config p = .ok contents)
    (hx : Manifest.extract t.current (.ofFile p false) contents = (r, .ok found)) :
    r.IsPlaceholder t config paths ∨ r.IsPackage t config paths := by
  rcases Manifest.extract_eq_ok hx with ⟨hd, rfl⟩ | ⟨arguments, hd, hne, i, rfl⟩
  · exact .inl ⟨hp, hname, ⟨contents, hc, Manifest.declaresNothing_iff.2 hd⟩, rfl⟩
  · have hdeclares : ¬ Manifest.DeclaresNothing contents.toList := by
      rw [Manifest.declaresNothing_iff, Option.mem_def.1 hd]
      simp [hne]
    have hr : ((Manifest.named t.current (.ofFile p false) arguments).addIdentifier i) =
        { Manifest.named t.current (.ofFile p false) arguments with identifiers := [i] } := by
      simp [Record.addIdentifier_eq, Manifest.named, Record.ofFile]
    rw [hr]
    exact .inr ⟨hp, hname, rfl, ⟨contents, hc, hdeclares⟩, rfl, ⟨i, rfl⟩,
      Manifest.packageName t.current p arguments, rfl, Manifest.packageName_ne_empty⟩

theorem Lock.exists_block_of_mem {s : List Char} {pin : Lock.Pin} (h : pin ∈ Lock.pins s) :
    ∃ start ∈ fromEachLine s, ∃ name version rest,
      BlockAt start name version rest ∧ pin.HasValues name version := by
  obtain ⟨start, hstart, name, version, rest, hat, hpin⟩ :=
    exists_left_of_mem (pins_blockStarts s) h
  exact ⟨start, (List.mem_filter.1 hstart).1, name, version, rest, hat, Pin.hasValues_iff.2 hpin⟩

theorem isPinned_of_mem {contents : String} {rs : List Record} (hp : p ∈ paths)
    (hname : p.name = "Package.resolved") (hc : t.contents config p = .ok contents)
    (hx : Lock.extract p contents = .ok rs) : ∀ r ∈ rs, r.IsPinned t config paths := by
  intro r hr
  obtain ⟨pin, hpin, i, -, rfl⟩ := Lock.exists_pin_of_mem hx hr
  obtain ⟨start, hstart, name, version, rest, hat, hvalues⟩ := Lock.exists_block_of_mem hpin
  exact ⟨hp, hname, rfl, ⟨contents, hc, start, hstart, name, version, rest, hat, pin, hvalues, rfl⟩,
    rfl, i, rfl⟩

theorem stands_for_file (hp : p ∈ paths)
    (h : (Registry.builtin.reading t config p).interruption? = none) :
    ∀ r ∈ (Registry.builtin.reading t config p).records,
      r.IsPlaceholder t config paths ∨ r.IsPackage t config paths ∨ r.IsPinned t config paths := by
  intro r hr
  have hread := readThrough h
  generalize Registry.builtin.reading t config p = reading at *
  cases hread with
  | untaken => cases hr
  | unread => cases hr
  | manifest hk hc hx =>
    rw [List.mem_singleton.1 hr]
    have hname := List.mem_singleton.1 (mem_fileNames_of_kindOf? hk)
    exact (isPlaceholder_or_isPackage hp hname hc hx).imp_right .inl
  | lock hk hc hx =>
    have hname := List.mem_singleton.1 (mem_fileNames_of_kindOf? hk)
    exact .inr (.inr (isPinned_of_mem hp hname hc hx r hr))

/-- Every record of a scan that comes to its end has the ecosystem of the program, and one
identifier with a name unless it stands for a manifest that describes no package. -/
theorem scan_describes_records (t : FileTree) (config : ScanConfig) (paths : List Path)
    (h : (Registry.builtin.analyzeFiles t config paths {}).fault = none) :
    ∀ r ∈ (Registry.builtin.analyzeFiles t config paths {}).inventory.records,
      r.IsPlaceholder t config paths ∨ r.IsPackage t config paths ∨ r.IsPinned t config paths := by
  intro r hr
  rw [Registry.records_analyzeFiles _ _ _ _ _ h] at hr
  obtain ⟨p, hp, hr⟩ : ∃ p ∈ paths, r ∈ (Registry.builtin.reading t config p).records := by
    simpa [Inventory.records] using hr
  rw [Registry.fault_analyzeFiles, List.findSome?_eq_none_iff] at h
  exact stands_for_file hp (h p hp) r hr

/-- A manifest that declares nothing, a lock file with a pin that has an empty name, and a manifest
that declares no name, around which no folder has a name. -/
def barelyNamed : FileTree := .ofTexts [
  ("Gloss/Package.swift", "import PackageDescription\n"),
  ("Gloss/Package.resolved",
    "\"package\": \"\",\n\"repositoryURL\":,\n\"branch\":,\n\"revision\":,\n\"version\":"),
  ("/Package.swift", "let package = Package(targets: [])")]

def barelyNamedPaths : List Path :=
  ["Gloss/Package.swift", "Gloss/Package.resolved", "/Package.swift"].map .ofString

theorem barely_named_described :
    (Registry.builtin.analyzeFiles barelyNamed {} barelyNamedPaths {}).inventory.records.map
      (·.name) = [none, some "", some ""] ∧
    ∀ r ∈ (Registry.builtin.analyzeFiles barelyNamed {} barelyNamedPaths {}).inventory.records,
      r.IsPlaceholder barelyNamed {} barelyNamedPaths ∨
        r.IsPackage barelyNamed {} barelyNamedPaths ∨ r.IsPinned barelyNamed {} barelyNamedPaths := by
  have hscan : (Registry.builtin.analyzeFiles barelyNamed {} barelyNamedPaths {}).fault = none ∧
      (Registry.builtin.analyzeFiles barelyNamed {} barelyNamedPaths {}).inventory.records.map
        (·.name) = [none, some "", some ""] := by
    decide +kernel
  exact ⟨hscan.2, scan_describes_records barelyNamed {} barelyNamedPaths hscan.1⟩

/-- Each of the three files leaves a record without a name, or with a name without characters. -/
theorem barely_named_alone :
    (∀ p ∈ barelyNamedPaths,
      (Registry.builtin.analyzeFiles barelyNamed {} [p] {}).fault = none) ∧
    ¬ ∃ p ∈ barelyNamedPaths,
      ∀ r ∈ (Registry.builtin.analyzeFiles barelyNamed {} [p] {}).inventory.records,
        r.ecosystem = some "swift" ∧ (∃ name, r.name = some name ∧ name ≠ "") ∧
          r.identifiers ≠ [] := by
  have hbare : ∀ p ∈ barelyNamedPaths,
      (Registry.builtin.analyzeFiles barelyNamed {} [p] {}).fault = none ∧
      ∃ r ∈ (Registry.builtin.analyzeFiles barelyNamed {} [p] {}).inventory.records,
        r.name = none ∨ r.name = some "" := by
    decide +kernel
  refine ⟨fun p hp ↦ (hbare p hp).1, ?_⟩
  rintro ⟨p, hp, h⟩
  obtain ⟨r, hr, hname⟩ := (hbare p hp).2
  obtain ⟨-, ⟨name, hsome, hne⟩, -⟩ := h r hr
  rw [hsome] at hname
  rcases hname with hname | hname
  · cases hname
  · exact hne (Option.some.inj hname)

end SwiftInventory
