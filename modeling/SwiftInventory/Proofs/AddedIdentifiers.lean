import SwiftInventory.Proofs.FirstOccurrence
import SwiftInventory.Proofs.Report.ReadBack

namespace SwiftInventory

theorem Identifier.readsBack_of_isFallback {i : Identifier} (h : i.isFallback = true) :
    i.ReadsBack := by
  cases i with
  | packageUrl url confidence => cases h
  | generic value confidence => trivial

theorem Identifier.ReadsBack.eq_of_toJson_eq {i i' : Identifier} (hi : i.ReadsBack)
    (hi' : i'.ReadsBack) (h : i.toJson = i'.toJson) : i = i' := by
  rw [Identifier.toJson_eq_ofShown] at h
  exact hi.eq_of_shown_eq hi' (Identifier.ofShown_injective h)

namespace Record

variable {r : Record} {added : List Identifier}

def addIdentifiers (r : Record) (added : List Identifier) : Record := added.foldl addIdentifier r

theorem addIdentifiers_concat (r : Record) (added : List Identifier) (i : Identifier) :
    r.addIdentifiers (added ++ [i]) = (r.addIdentifiers added).addIdentifier i := by
  rw [addIdentifiers, List.foldl_append]
  rfl

theorem addIdentifiers_eq (hempty : r.identifiers = []) (added : List Identifier) :
    r.addIdentifiers added = { r with identifiers := added.eraseDups } := by
  induction added using List.reverseRecOn with
  | nil => rw [addIdentifiers, List.foldl_nil, List.eraseDups_nil, ← hempty]
  | append_singleton added i ih =>
    rw [addIdentifiers_concat, ih, addIdentifier_eq, eraseDups_concat]
    simp [List.mem_eraseDups]

/-- Identifiers made from coordinates, and plain texts, are gathered without repetitions in the
order in which they were first added. What is written of them tells them apart: package URLs with
one text are one package URL. -/
theorem addIdentifiers_apart (r : Record) (added : List Identifier) (hempty : r.identifiers = [])
    (hadded : ∀ i ∈ added, i.IsBuilt ∨ i.isFallback = true) :
    r.addIdentifiers added = { r with identifiers := (r.addIdentifiers added).identifiers } ∧
    (r.addIdentifiers added).identifiers.Nodup ∧
    (∀ i, i ∈ (r.addIdentifiers added).identifiers ↔ i ∈ added) ∧
    ((r.addIdentifiers added).identifiers.Pairwise fun i i' ↦ added.idxOf i < added.idxOf i') ∧
    ((r.addIdentifiers added).identifiers.map Identifier.toJson).Nodup ∧
    ∀ url url' confidence confidence', .packageUrl url confidence ∈ added →
      .packageUrl url' confidence' ∈ added → url.text = url'.text → url = url' := by
  have hread : ∀ i ∈ added, i.ReadsBack := fun i hi ↦
    (hadded i hi).elim (·.readsBack) Identifier.readsBack_of_isFallback
  rw [addIdentifiers_eq hempty]
  refine ⟨rfl, nodup_eraseDups added, fun i ↦ List.mem_eraseDups, pairwise_eraseDups added, ?_, ?_⟩
  · apply (nodup_eraseDups added).map_on
    intro i hi i' hi' h
    apply Identifier.ReadsBack.eq_of_toJson_eq _ _ h
    · exact hread i (List.mem_eraseDups.1 hi)
    · exact hread i' (List.mem_eraseDups.1 hi')
  · intro url url' confidence confidence' h h' htext
    have hurl : PackageUrl.parse url.text = .ok url := hread _ h
    have hurl' : PackageUrl.parse url'.text = .ok url' := hread _ h'
    rw [htext, hurl'] at hurl
    exact (Except.ok.inj hurl).symm

def glossIdentifier (confidence : Confidence) : Identifier :=
  .packageUrl ⟨"swift", none, "Gloss", some "1.0"⟩ confidence

theorem isBuilt_glossIdentifier (confidence : Confidence) :
    (glossIdentifier confidence).IsBuilt := by
  refine ⟨some "swift", some "Gloss", some "1.0", confidence, ?_⟩
  have hchecked : PackageUrl.checked (some "swift") (some "Gloss") (some "1.0") =
      .ok ⟨"swift", none, "Gloss", some "1.0"⟩ := by
    decide +kernel
  rw [Identifier.ofCoordinates, hchecked]
  rfl

/-- The same package URL twice and once more with another confidence, and a text like its own. -/
def glossIdentifiers : List Identifier :=
  [glossIdentifier .highest, .generic "pkg:swift/Gloss@1.0" .highest, glossIdentifier .highest,
    glossIdentifier .low]

theorem glossIdentifiers_apart :
    let r := ofFile (.ofString "Package.swift") false
    r.identifiers = [] ∧ (∀ i ∈ glossIdentifiers, i.IsBuilt ∨ i.isFallback = true) ∧
    (r.addIdentifiers glossIdentifiers).identifiers =
      [glossIdentifier .highest, .generic "pkg:swift/Gloss@1.0" .highest, glossIdentifier .low] ∧
    ((r.addIdentifiers glossIdentifiers).identifiers.map Identifier.toJson).Nodup := by
  intro r
  have hadded : ∀ i ∈ glossIdentifiers, i.IsBuilt ∨ i.isFallback = true := by
    simp [glossIdentifiers, isBuilt_glossIdentifier, Identifier.isFallback]
  obtain ⟨-, -, -, -, hwritten, -⟩ := addIdentifiers_apart r glossIdentifiers rfl hadded
  exact ⟨rfl, hadded, by decide +kernel, hwritten⟩

end Record

end SwiftInventory
