import SwiftInventory.Proofs.Lock.Extraction
import SwiftInventory.Proofs.Scan.Builtin

namespace SwiftInventory

namespace ScanEntry

/-- What an entry says about its file and about the inventory at the end of the scan. -/
structure Faithful (t : FileTree) (config : ScanConfig) (inv : Inventory) (e : ScanEntry) :
    Prop where
  skipped_iff : e.verdict = .skipped ↔ config.kindOf? e.path = none
  failed_iff : ∀ fault, e.verdict = .failed fault ↔
    (config.kindOf? e.path).isSome = true ∧
      t.contents config e.path = .error (.unreadable fault)
  nothing : (∀ result, e.verdict ≠ .analyzed result) → e.added = []
  same_path : ∀ result, e.verdict = .analyzed result → result.filePath = e.path
  of_manifest : ∀ result, e.verdict = .analyzed result → config.kindOf? e.path = some .manifest →
    ∃ id, e.added = [id] ∧ (inv.get id).filePath = e.path ∧ (inv.get id).isVirtual = false
  of_lock : ∀ result, e.verdict = .analyzed result → config.kindOf? e.path = some .lock →
    e.added = result.records ∧ (∀ id ∈ e.added, (inv.get id).isVirtual = true) ∧
      ∃ id, result.removed = [id] ∧ id ∉ inv.collection.members
  alone : (Registry.builtin.analyzeFiles t config [e.path] {}).fault = none ∧
    e.added.map inv.get = (Registry.builtin.analyzeFiles t config [e.path] {}).inventory.records

variable {t : FileTree} {config : ScanConfig} {inv : Inventory} {e : ScanEntry} {start : RecordId}

theorem Stands.interruption {reg : Registry} (h : e.Stands reg t config inv start) :
    (reg.reading t config e.path).interruption? = none := by
  cases hi : (reg.reading t config e.path).interruption? with
  | none => rfl
  | some fault =>
    have hv := h.verdict
    rw [FileReading.verdict_eq_error _ _ hi] at hv
    cases hv

theorem Stands.alone (h : e.Stands .builtin t config inv start) :
    (Registry.builtin.analyzeFiles t config [e.path] {}).fault = none ∧
      e.added.map inv.get =
        (Registry.builtin.analyzeFiles t config [e.path] {}).inventory.records := by
  have hf : (Registry.builtin.analyzeFiles t config [e.path] {}).fault = none := by
    rw [Registry.fault_analyzeFiles, List.findSome?_singleton, h.interruption]
  refine ⟨hf, ?_⟩
  rw [Registry.records_analyzeFiles _ _ _ _ _ hf, h.records]
  simp [Inventory.records]

theorem Faithful.of_idle (hidle : ∀ result, e.verdict ≠ .analyzed result)
    (hskipped : e.verdict = .skipped ↔ config.kindOf? e.path = none)
    (hfailed : ∀ fault, e.verdict = .failed fault ↔
      (config.kindOf? e.path).isSome = true ∧
        t.contents config e.path = .error (.unreadable fault))
    (hadded : e.added = [])
    (halone : (Registry.builtin.analyzeFiles t config [e.path] {}).fault = none ∧
      e.added.map inv.get =
        (Registry.builtin.analyzeFiles t config [e.path] {}).inventory.records) :
    e.Faithful t config inv where
  skipped_iff := hskipped
  failed_iff := hfailed
  nothing _ := hadded
  same_path result h := absurd h (hidle result)
  of_manifest result h := absurd h (hidle result)
  of_lock result h := absurd h (hidle result)
  alone := halone

theorem Stands.faithful (h : e.Stands .builtin t config inv start) : e.Faithful t config inv := by
  have hread := readThrough h.interruption
  have halone := h.alone
  obtain ⟨hverdict, hadded, hrecords, -, -, habsent⟩ := h
  -- From here on only the way in which the file was read matters.
  generalize Registry.builtin.reading t config e.path = reading at *
  cases hread with
  | untaken hk =>
    have hv : e.verdict = .skipped := (Except.ok.inj hverdict).symm
    exact .of_idle (by simp [hv]) (by simp [hv, hk]) (by simp [hv, hk]) hadded halone
  | @unread kind fault hk hc =>
    have hv : e.verdict = .failed fault := (Except.ok.inj hverdict).symm
    exact .of_idle (by simp [hv]) (by simp [hv, hk]) (by simp [hv, hk, hc]) hadded halone
  | @manifest contents r found hk hc hx =>
    have hv := (Except.ok.inj hverdict).symm
    have hr : inv.get start = r := by
      simpa [hadded, FileReading.ids, FileReading.records] using hrecords
    have hkeeps := Manifest.extract_keeps t.current (.ofFile e.path false) contents
    rw [hx] at hkeeps
    exact {
      skipped_iff := by simp [hv, hk]
      failed_iff := by simp [hv, hc]
      nothing := fun h ↦ absurd hv (h _)
      same_path := by simp [hv]
      of_manifest := fun _ _ _ ↦ ⟨start, hadded, hr ▸ hkeeps.1, hr ▸ hkeeps.2.2.1⟩
      of_lock := by simp [hk]
      alone := halone }
  | @lock contents rs hk hc hx =>
    have hv := (Except.ok.inj hverdict).symm
    -- The record for the lock file has the identity before those of its pins.
    have hstart : start ∉ e.added := by
      rw [hadded, FileReading.ids, List.mem_range'_1]
      omega
    have hvirtual : ∀ id ∈ e.added, (inv.get id).isVirtual = true := by
      intro id hid
      have hmem : inv.get id ∈ e.added.map inv.get := List.mem_map_of_mem hid
      rw [hrecords] at hmem
      exact Lock.isVirtual_of_mem hx hmem
    exact {
      skipped_iff := by simp [hv, hk]
      failed_iff := by simp [hv, hc]
      nothing := fun h ↦ absurd hv (h _)
      same_path := by simp [hv]
      of_manifest := by simp [hk]
      of_lock := by
        intro result hresult _
        obtain rfl := Verdict.analyzed.inj (hv.symm.trans hresult)
        exact ⟨hadded, hvirtual, start, rfl, habsent (by simp) hstart⟩
      alone := halone }

end ScanEntry

/-- A scan that comes to its end has one verdict on each path of its list, in order, and puts into
the collection what the files add, one after the other, with all that was there before left as it
was. -/
theorem scan_accounts_for_files (t : FileTree) (config : ScanConfig) (paths : List Path)
    (inv : Inventory) (h : (Registry.builtin.analyzeFiles t config paths inv).fault = none) :
    ∃ entries : List ScanEntry,
      entries.map (·.path) = paths ∧
      (Registry.builtin.analyzeFiles t config paths inv).outcome.results =
        entries.filterMap (·.result?) ∧
      (Registry.builtin.analyzeFiles t config paths inv).outcome.failures =
        entries.filterMap (·.failure?) ∧
      (Registry.builtin.analyzeFiles t config paths inv).outcome.skipped =
        entries.filterMap (·.skipped?) ∧
      inv.Grows (Registry.builtin.analyzeFiles t config paths inv).inventory
        (entries.flatMap (·.added)) ∧
      ∀ e ∈ entries,
        e.Faithful t config (Registry.builtin.analyzeFiles t config paths inv).inventory := by
  obtain ⟨entries, hb⟩ := Registry.builtin.analyzeFiles_booked t config paths inv h
  refine ⟨entries, hb.paths, hb.results, hb.failures, hb.skipped, hb.grows, fun e he ↦ ?_⟩
  obtain ⟨start, hst⟩ := hb.stands e he
  exact hst.faithful

def twoFiles : FileTree := .ofTexts [
  ("Package.swift", "let package = Package(name: \"A\")"),
  ("Package.resolved", "\"package\": \"B\",\n\"repositoryURL\": \"u\",\n\"branch\": null,\n" ++
    "\"revision\": \"r\",\n\"version\": \"1.0\"\n")]

def twoFilesPaths : List Path :=
  ["Package.swift", "Package.resolved", "gone/Package.swift", "README.md", "Package.resolved"].map
    .ofString

theorem two_files_accounted : ∃ entries : List ScanEntry,
    entries.map (·.path) = twoFilesPaths ∧
    ∀ e ∈ entries, e.Faithful twoFiles {}
      (Registry.builtin.analyzeFiles twoFiles {} twoFilesPaths {}).inventory := by
  have h : (Registry.builtin.analyzeFiles twoFiles {} twoFilesPaths {}).fault = none := by
    decide +kernel
  obtain ⟨entries, hpaths, -, -, -, -, he⟩ :=
    scan_accounts_for_files twoFiles {} twoFilesPaths {} h
  exact ⟨entries, hpaths, he⟩

end SwiftInventory
