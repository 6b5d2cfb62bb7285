import SwiftInventory.Analyzer
import SwiftInventory.Proofs.Growth
import SwiftInventory.Proofs.Manifest.Arguments
import SwiftInventory.Proofs.Manifest.Extraction

namespace SwiftInventory

open Text

/-- Evidence and identifiers are appended, and what is known of the file stays. -/
structure Record.Extends (r r' : Record) (evidence : List Evidence)
    (identifiers : List Identifier) : Prop where
  filePath : r'.filePath = r.filePath
  actualFile : r'.actualFile = r.actualFile
  version : r'.version = r.version
  checksums : r'.checksums = r.checksums
  isVirtual : r'.isVirtual = r.isVirtual
  evidence_eq : r'.evidence = r.evidence ++ evidence
  evidence_length : evidence.length = 0 ∨ evidence.length = 2
  identifiers_eq : r'.identifiers = r.identifiers ++ identifiers
  identifiers_length : identifiers.length ≤ 1
  identifiers_new : ∀ i ∈ identifiers, i ∉ r.identifiers

namespace Manifest

variable {current : Location} {r r' : Record} {contents : String} {arguments : List Char}
  {found : Findings} {i : Identifier}

/-- No declaration is closed, or the first one has blank arguments. -/
def DeclaresNothing (s : List Char) : Prop :=
  (∀ before, ∀ d : Declaration, ∀ inside,
    s = before ++ (d.text ++ inside) → AtWordEdge before → ')' ∉ inside) ∨
  ∃ before, ∃ d : Declaration, ∃ front rest,
    s = before ++ (d.text ++ (front ++ ')' :: rest)) ∧
      IsFirst DeclaresAt before (d.text ++ (front ++ ')' :: rest)) ∧ ')' ∉ front ∧
      ∀ c ∈ front, isBlank c = true

theorem declaresNothing_iff {s : List Char} :
    DeclaresNothing s ↔ description? s = none ∨ description? s = some [] := by
  rw [DeclaresNothing, description?_eq_none, description?_eq_some]
  simp only [trimStart, eq_comm (a := ([] : List Char)), List.dropWhile_eq_nil_iff]

theorem addIdentifier_of_mem (h : i ∈ r.identifiers) : r.addIdentifier i = r := by
  rw [Record.addIdentifier, if_pos (by simpa using h)]

def identified (current : Location) (r : Record) (arguments : List Char) (i : Identifier) :
    Record :=
  { (named current r arguments).addIdentifier i with
    packagePath := r.filePath.parentText?.or r.packagePath }

theorem nameEvidence_length (name : String) :
    (nameEvidence name).length = 0 ∨ (nameEvidence name).length = 2 := by
  rw [nameEvidence]
  split
  · exact .inl rfl
  · exact .inr rfl

theorem extends_identified (current : Location) (r : Record) (arguments : List Char)
    (i : Identifier) :
    r.Extends (identified current r arguments i) (nameEvidence (declaredName arguments))
      (if i ∈ r.identifiers then [] else [i]) where
  filePath := by simp [identified, named, Record.addIdentifier_eq]
  actualFile := by simp [identified, named, Record.addIdentifier_eq]
  version := by simp [identified, named, Record.addIdentifier_eq]
  checksums := by simp [identified, named, Record.addIdentifier_eq]
  isVirtual := by simp [identified, named, Record.addIdentifier_eq]
  evidence_eq := by simp [identified, named, Record.addIdentifier_eq]
  evidence_length := nameEvidence_length _
  identifiers_eq := by
    simp only [identified, named, Record.addIdentifier_eq, List.contains_iff_mem]
    split <;> simp
  identifiers_length := by split <;> simp
  identifiers_new := by
    split
    · simp
    · simpa

/-- No reading looks at what an earlier one has changed, save for the identifiers. -/
theorem identified_twice (current : Location) (r : Record) (arguments : List Char)
    (i : Identifier) :
    identified current (identified current r arguments i) arguments i =
      { identified current r arguments i with
        evidence := (identified current r arguments i).evidence ++
          nameEvidence (declaredName arguments) } := by
  have hkept := extends_identified current r arguments i
  have hmem : i ∈ (identified current r arguments i).identifiers :=
    Record.mem_addIdentifier (named current r arguments) i
  have hmem' : i ∈ (named current (identified current r arguments i) arguments).identifiers := hmem
  have hpath : (identified current r arguments i).filePath.parentText?.or
      (identified current r arguments i).packagePath =
        (identified current r arguments i).packagePath := by
    rw [hkept.filePath, identified, ← Option.or_assoc, Option.or_self]
  rw [identified, addIdentifier_of_mem hmem', hpath]
  simp only [named, hkept.actualFile, hkept.version]
  simp [identified, named, Record.addIdentifier_eq]

theorem extract_of_identified (h : description? contents.toList = some arguments)
    (hne : arguments ≠ [])
    (hi : Identifier.ofCoordinates (some ecosystem)
      (some (packageName current r.actualFile arguments)) (nonEmpty? r.version) .highest = .ok i) :
    extract current r contents = (identified current r arguments i,
      .ok ⟨true, true, (declaredName arguments).isEmpty, i.isFallback⟩) := by
  rw [extract_of_arguments h hne, hi]
  rfl

theorem extract_of_declaresNothing (h : DeclaresNothing contents.toList) (r : Record) :
    extract current r contents = ({ r with ecosystem := some ecosystem },
      .ok ⟨(description? contents.toList).isSome, false, false, false⟩) := by
  rcases declaresNothing_iff.1 h with h | h
  · rw [extract_of_none h, h]
    rfl
  · rw [extract_of_blank h, h]
    rfl

theorem exists_identified (hd : ¬ DeclaresNothing contents.toList)
    (h : extract current r contents = (r', .ok found)) :
    ∃ arguments i, description? contents.toList = some arguments ∧ arguments ≠ [] ∧
      Identifier.ofCoordinates (some ecosystem) (some (packageName current r.actualFile arguments))
        (nonEmpty? r.version) .highest = .ok i := by
  rw [declaresNothing_iff, not_or] at hd
  obtain ⟨arguments, hsome⟩ := Option.ne_none_iff_exists'.1 hd.1
  have hne : arguments ≠ [] := by
    rintro rfl
    exact hd.2 hsome
  rw [extract_of_arguments hsome hne] at h
  split at h
  · cases h
  · rename_i i hi
    exact ⟨arguments, i, hsome, hne, hi⟩

theorem extract_twice (h : extract current r contents = (r', .ok found)) :
    ∃ evidence identifiers, r.Extends r' evidence identifiers ∧
      extract current r' contents =
        ({ r' with evidence := r'.evidence ++ evidence }, .ok found) := by
  by_cases hd : DeclaresNothing contents.toList
  · rw [extract_of_declaresNothing hd, Prod.mk.injEq] at h
    obtain ⟨rfl, hfound⟩ := h
    refine ⟨[], [], ?_, ?_⟩
    · constructor <;> simp
    · rw [extract_of_declaresNothing hd, hfound, List.append_nil]
  · obtain ⟨arguments, i, hsome, hne, hi⟩ := exists_identified hd h
    rw [extract_of_identified hsome hne hi, Prod.mk.injEq] at h
    obtain ⟨rfl, hfound⟩ := h
    have hkept := extends_identified current r arguments i
    refine ⟨_, _, hkept, ?_⟩
    rw [← identified_twice, ← hfound]
    apply extract_of_identified hsome hne
    rw [hkept.actualFile, hkept.version, hi]

end Manifest

namespace Analyzer

open Manifest

variable {inv inv' : Inventory} {id : RecordId} {result : AnalysisResult}

theorem extractManifest_eq_ok {a : Analyzer} {current : Location} {contents : String} :
    a.extractManifest current id contents inv = (inv', .ok result) ↔
      ∃ r' found, extract current (inv.get id) contents = (r', .ok found) ∧
        inv' = inv.set id r' ∧ result = {
          analyzer := a.name
          filePath := (inv.get id).filePath
          records := if found.listed then [id] else []
          declared := found.declared
          namedAfterFolder := found.namedAfterFolder
          genericIdentifier := found.genericIdentifier } := by
  rw [extractManifest]
  obtain ⟨r', found⟩ := extract current (inv.get id) contents
  cases found with
  | error e =>
    constructor
    · intro h
      cases (Prod.mk.inj h).2
    · rintro ⟨_, _, h, -⟩
      cases (Prod.mk.inj h).2
  | ok found =>
    constructor
    · intro h
      obtain ⟨hinv, hresult⟩ := Prod.mk.inj h
      exact ⟨r', found, rfl, hinv.symm, (Except.ok.inj hresult).symm⟩
    · rintro ⟨_, _, h, rfl, rfl⟩
      cases h
      rfl

/-- A manifest adds to one record, and to nothing else of the inventory. Where it declares nothing
it adds nothing. Once more, it adds its evidence once more and is found to say the same. -/
theorem extractManifest_repeats (a : Analyzer) (current : Location) (contents : String)
    (hid : id < inv.store.size)
    (h : a.extractManifest current id contents inv = (inv', .ok result)) :
    (inv'.collection = inv.collection ∧ ∀ other, other ≠ id → inv'.get other = inv.get other) ∧
    (DeclaresNothing contents.toList →
      inv'.get id = { inv.get id with ecosystem := some "swift" } ∧ result.records = []) ∧
    ∃ evidence identifiers, (inv.get id).Extends (inv'.get id) evidence identifiers ∧
      a.extractManifest current id contents inv' =
        (inv'.set id { inv'.get id with evidence := (inv'.get id).evidence ++ evidence },
          .ok result) := by
  obtain ⟨r', found, hx, rfl, rfl⟩ := extractManifest_eq_ok.1 h
  have hget : (inv.set id r').get id = r' := RecordStore.get_set_self hid r'
  rw [hget]
  refine ⟨⟨rfl, fun other hne ↦ RecordStore.get_set_of_ne hne.symm r'⟩, fun hd ↦ ?_, ?_⟩
  · rw [extract_of_declaresNothing hd, Prod.mk.injEq] at hx
    obtain ⟨rfl, hfound⟩ := hx
    cases hfound
    exact ⟨rfl, rfl⟩
  · obtain ⟨evidence, identifiers, hextends, htwice⟩ := extract_twice hx
    refine ⟨evidence, identifiers, hextends, extractManifest_eq_ok.2 ⟨_, found, ?_, rfl, ?_⟩⟩
    · rw [hget, htwice]
    · rw [hget, hextends.filePath]

def usedRecord : Record :=
  { Record.ofFile (.ofString "Gloss/Package.swift") false with
    version := some "1.0"
    identifiers := [.generic "gloss" .low]
    evidence := [⟨.vendor, "README", "title", "Gloss", .low⟩] }

def usedInventory : Inventory where
  store := ⟨#[usedRecord]⟩
  collection := ⟨[0]⟩
  members_known := by decide

theorem used_record_repeats :
    ∃ inv' result evidence,
      manifest.extractManifest [] 0 "let package = Package(name: \"Gloss\")" usedInventory =
        (inv', .ok result) ∧ result.records = [0] ∧ evidence.length = 2 ∧
      manifest.extractManifest [] 0 "let package = Package(name: \"Gloss\")" inv' =
        (inv'.set 0 { inv'.get 0 with evidence := (inv'.get 0).evidence ++ evidence },
          .ok result) := by
  have hid : 0 < usedInventory.store.size := by decide
  have hresult : (manifest.extractManifest [] 0 "let package = Package(name: \"Gloss\")"
      usedInventory).2 = .ok {
        analyzer := manifest.name
        filePath := .ofString "Gloss/Package.swift"
        records := [0]
        declared := true } := by
    decide +kernel
  have hlength : ((manifest.extractManifest [] 0 "let package = Package(name: \"Gloss\")"
      usedInventory).1.get 0).evidence.length = 3 := by
    decide +kernel
  obtain ⟨-, -, evidence, identifiers, hextends, htwice⟩ :=
    extractManifest_repeats manifest [] _ hid (Prod.ext rfl hresult)
  refine ⟨_, _, evidence, Prod.ext rfl hresult, rfl, ?_, htwice⟩
  rw [hextends.evidence_eq, List.length_append] at hlength
  have hold : (usedInventory.get 0).evidence.length = 1 := by decide
  omega

end Analyzer

end SwiftInventory
