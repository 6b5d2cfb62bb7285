import SwiftInventory.Proofs.Lock.Extraction
import SwiftInventory.Proofs.Manifest.Extraction
import SwiftInventory.Proofs.Scan.Run

namespace SwiftInventory

namespace Identifier

def IsBuilt (i : Identifier) : Prop :=
  ∃ ecosystem name version confidence, ofCoordinates ecosystem name version confidence = .ok i

def shown (i : Identifier) : Bool × String × Confidence := (i.isFallback, i.value, i.confidence)

theorem parse_text_of_isBuilt {url : PackageUrl} {confidence : Confidence}
    (h : (packageUrl url confidence).IsBuilt) : PackageUrl.parse url.text = .ok url := by
  obtain ⟨ecosystem, name, version, confidence', h⟩ := h
  rw [ofCoordinates] at h
  split at h
  · rename_i url' hchecked
    cases h
    obtain ⟨-, -, -, -, -, -, -, -, hread⟩ := PackageUrl.checked_eq_ok.1 hchecked
    exact hread
  · cases h
  · cases h

/-- A package URL that reads back from its text is told by it. -/
def ReadsBack : Identifier → Prop
  | packageUrl url _ => PackageUrl.parse url.text = .ok url
  | generic .. => True

theorem IsBuilt.readsBack {i : Identifier} (h : i.IsBuilt) : i.ReadsBack := by
  cases i with
  | packageUrl url confidence => exact parse_text_of_isBuilt h
  | generic value confidence => trivial

theorem ReadsBack.eq_of_shown_eq {i i' : Identifier} (hi : i.ReadsBack) (hi' : i'.ReadsBack)
    (h : i.shown = i'.shown) : i = i' := by
  simp only [shown, Prod.mk.injEq] at h
  obtain ⟨hkind, hvalue, hconfidence⟩ := h
  cases i with
  | packageUrl url confidence =>
    cases i' with
    | packageUrl url' confidence' =>
      have hread : PackageUrl.parse url.text = .ok url := hi
      rw [show url.text = url'.text from hvalue, show PackageUrl.parse url'.text = _ from hi']
        at hread
      rw [← Except.ok.inj hread, show confidence = confidence' from hconfidence]
    | generic value confidence' => cases hkind
  | generic value confidence =>
    cases i' with
    | packageUrl url' confidence' => cases hkind
    | generic value' confidence' =>
      rw [show value = value' from hvalue, show confidence = confidence' from hconfidence]

/-- A package URL that was checked reads back as itself, so its text says it all. -/
theorem eq_of_shown_eq {i i' : Identifier} (hi : i.IsBuilt) (hi' : i'.IsBuilt)
    (h : i.shown = i'.shown) : i = i' :=
  hi.readsBack.eq_of_shown_eq hi'.readsBack h

end Identifier

variable {t : FileTree} {config : ScanConfig} {p : Path}

theorem Manifest.isBuilt_extract (current : Location) (r : Record) (contents : String) :
    ∀ i ∈ (extract current r contents).1.identifiers, i ∈ r.identifiers ∨ i.IsBuilt := by
  intro i hi
  cases h : description? contents.toList with
  | none => exact .inl (by simpa [extract_of_none h] using hi)
  | some arguments =>
    by_cases hne : arguments = []
    · rw [hne] at h
      exact .inl (by simpa [extract_of_blank h] using hi)
    · rw [extract_of_arguments h hne] at hi
      split at hi
      · exact .inl hi
      · rename_i made hmade
        rw [Record.addIdentifier_eq] at hi
        dsimp only at hi
        split at hi
        · exact .inl hi
        · refine (List.mem_append.1 hi).imp id fun hi ↦ ?_
          rw [List.mem_singleton.1 hi]
          exact ⟨_, _, _, _, hmade⟩

theorem Lock.isBuilt_of_extract {contents : String} {rs : List Record}
    (h : extract p contents = .ok rs) : ∀ r ∈ rs, ∀ i ∈ r.identifiers, i.IsBuilt := by
  intro r hr i hi
  obtain ⟨pin, -, made, hmade, rfl⟩ := exists_pin_of_mem h hr
  rw [List.mem_singleton.1 hi]
  exact ⟨_, _, _, _, hmade⟩

theorem Analyzer.isBuilt_of_reading (a : Analyzer) :
    ∀ r ∈ (a.reading t config p).records, ∀ i ∈ r.identifiers, i.IsBuilt := by
  rw [reading]
  split
  · intro r hr
    cases hr
  · intro r hr i hi
    rw [List.mem_singleton.1 hr] at hi
    cases hi
  · intro r hr
    cases hr
  · rename_i contents _ _
    intro r hr i hi
    rw [List.mem_singleton.1 hr] at hi
    exact (Manifest.isBuilt_extract t.current (.ofFile p false) contents i hi).resolve_left
      List.not_mem_nil
  · rename_i contents _ _
    intro r hr
    cases hx : Lock.extract p contents with
    | error e =>
      rw [hx] at hr
      cases hr
    | ok rs =>
      rw [hx] at hr
      exact Lock.isBuilt_of_extract hx r hr

theorem scan_identifiers_isBuilt (reg : Registry) (t : FileTree) (config : ScanConfig)
    (paths : List Path) (h : (reg.analyzeFiles t config paths {}).fault = none) :
    ∀ r ∈ (reg.analyzeFiles t config paths {}).inventory.records,
      ∀ i ∈ r.identifiers, i.IsBuilt := by
  intro r hr
  rw [Registry.records_analyzeFiles _ _ _ _ _ h] at hr
  obtain ⟨p, -, hr⟩ : ∃ p ∈ paths, r ∈ (reg.reading t config p).records := by
    simpa [Inventory.records] using hr
  rw [Registry.reading] at hr
  split at hr
  · cases hr
  · exact Analyzer.isBuilt_of_reading _ r hr

end SwiftInventory
