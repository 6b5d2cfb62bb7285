import SwiftInventory.Proofs.Lock.Extraction
import SwiftInventory.Proofs.Scan.Builtin

namespace SwiftInventory

def FileKind.IsFaulty (kind : FileKind) (contents : String) : Prop :=
  match kind with
  | .manifest => Manifest.IsFaulty contents
  | .lock => ∃ pin ∈ Lock.pins contents.toList, pin.IsFaulty

variable {t : FileTree} {config : ScanConfig} {p : Path}

theorem interruption_of_contents (kind : FileKind) {contents : String}
    (hc : t.contents config p = .ok contents) :
    ((Analyzer.ofKind kind).reading t config p).interruption? = none ↔
      ¬ kind.IsFaulty contents := by
  cases kind with
  | manifest =>
    rw [Analyzer.reading_of_manifest _ rfl hc]
    cases hx : (Manifest.extract t.current (.ofFile p false) contents).2 with
    | error e =>
      obtain ⟨arguments, ha, hs, -⟩ := (Manifest.extract_eq_error rfl).1 hx
      have hfaulty : Manifest.IsFaulty contents := ⟨arguments, ha, hs⟩
      simp [Except.mapError, FileReading.interruption?, FileKind.IsFaulty, hfaulty]
    | ok found =>
      have hfine : ¬ Manifest.IsFaulty contents := by
        rintro ⟨arguments, ha, hs⟩
        have he : (Manifest.extract t.current (.ofFile p false) contents).2 = .error _ :=
          (Manifest.extract_eq_error rfl).2 ⟨arguments, ha, hs, rfl⟩
        rw [hx] at he
        cases he
      simp [Except.mapError, FileReading.interruption?, FileKind.IsFaulty, hfine]
  | lock =>
    have hreturns : (∃ rs, Lock.extract p contents = .ok rs) ↔ _ := Lock.extract_returns
    rw [Analyzer.reading_of_lock _ rfl hc]
    cases hx : Lock.extract p contents with
    | error e =>
      simp only [hx, reduceCtorEq, exists_false, false_iff] at hreturns
      simpa [Except.mapError, FileReading.interruption?, FileKind.IsFaulty] using hreturns
    | ok rs =>
      simp only [hx, Except.ok.injEq, exists_eq', true_iff] at hreturns
      simpa [Except.mapError, FileReading.interruption?, FileKind.IsFaulty] using hreturns

theorem interruption_eq_none_iff :
    (Registry.builtin.reading t config p).interruption? = none ↔
      ∀ kind ∈ config.kindOf? p,
        (∀ e, t.contents config p ≠ .error (.pathTooLong e)) ∧
        ∀ contents, t.contents config p = .ok contents → ¬ kind.IsFaulty contents := by
  cases hk : config.kindOf? p with
  | none => simp [builtin_reading_of_none hk, FileReading.interruption?]
  | some kind =>
    rw [builtin_reading_of_some hk]
    cases hc : t.contents config p with
    | error fault =>
      cases fault with
      | unreadable e => simp [Analyzer.reading_of_unreadable _ hc, FileReading.interruption?]
      | pathTooLong e => simp [Analyzer.interruption_of_pathTooLong _ hc]
    | ok contents => simp [interruption_of_contents kind hc]

/-- A scan comes to its end exactly when no file that is taken has a path too long to be looked up
or a text that names a package with slashes only. -/
theorem scan_ends_iff (t : FileTree) (config : ScanConfig) (paths : List Path) (inv : Inventory) :
    (Registry.builtin.analyzeFiles t config paths inv).fault = none ↔
      ∀ p ∈ paths, ∀ kind ∈ config.kindOf? p,
        (∀ e, t.contents config p ≠ .error (.pathTooLong e)) ∧
        ∀ contents, t.contents config p = .ok contents → ¬ kind.IsFaulty contents := by
  rw [Registry.fault_analyzeFiles, List.findSome?_eq_none_iff]
  simp only [interruption_eq_none_iff]

def slashesTree : FileTree := .ofTexts [
  ("Package.swift", "let package = Package(name: \"/\")"),
  ("sub/Package.swift", "let package = Package(name: \"Ok\")")]

/-- The second file is fine by itself, but the scan does not come to it. -/
theorem slashes_stop_scan :
    (Registry.builtin.analyzeFiles slashesTree {}
      [.ofString "Package.swift", .ofString "sub/Package.swift"] {}).fault =
        some (.slashesOnly ⟨"/"⟩) ∧
    (Registry.builtin.analyzeFiles slashesTree {}
      [.ofString "Package.swift", .ofString "sub/Package.swift"] {}).outcome.results = [] ∧
    (Registry.builtin.analyzeFiles slashesTree {} [.ofString "sub/Package.swift"] {}).fault =
      none := by
  decide +kernel

end SwiftInventory
