import Mathlib.Data.List.Forall2
import SwiftInventory.Lock.Reading
import SwiftInventory.Proofs.Digest
import SwiftInventory.Proofs.Identification

namespace SwiftInventory.Lock

variable {file : Path} {pin : Pin} {ps : List Pin}

def Pin.text (pin : Pin) : String := pin.name ++ ":" ++ pin.version

/-- The record of a pin that is known by an identifier, with every field of it. -/
def Pin.record (file : Path) (pin : Pin) (i : Identifier) : Record where
  filePath := file
  actualFile := file
  ecosystem := some "swift"
  name := some pin.name
  version := some pin.version
  packagePath := some pin.text
  displayName := some pin.text
  identifiers := [i]
  evidence := [
    ⟨.vendor, "Package.resolved", "name", pin.name, .highest⟩,
    ⟨.product, "Package.resolved", "name", pin.name, .highest⟩,
    ⟨.version, "Package.resolved", "version", pin.version, .highest⟩]
  checksums :=
    let octets := Text.Utf8.encode pin.text.toList
    some ⟨Digest.Sha1.digest octets, Digest.Sha256.digest octets, Digest.Md5.digest octets⟩
  isVirtual := true

/-- A name of slashes only, with a version that a package URL could carry or without one. -/
def Pin.IsFaulty (pin : Pin) : Prop :=
  IsSlashes pin.name.toList ∧ ∀ c ∈ pin.version.toList, Text.isBlankOrControl c = false

instance (pin : Pin) : Decidable pin.IsFaulty :=
  letI := List.decidableBAll (Text.isBlankOrControl · = false) pin.version.toList
  inferInstanceAs (Decidable (_ ∧ _))

theorem carried_iff {version : String} :
    (∀ v ∈ nonEmpty? (some version), PackageUrl.isCoordinate v.toList = true) ↔
      ∀ c ∈ version.toList, Text.isBlankOrControl c = false := by
  by_cases h : version = ""
  · simp [h, nonEmpty?]
  · simp [h, nonEmpty?, PackageUrl.isCoordinate_iff]

/-- What a pin is known by. A text without characters is no version. -/
def Pin.identifier (pin : Pin) : Except SlashesOnly Identifier :=
  Identifier.ofCoordinates (some ecosystem) (some pin.name) (nonEmpty? (some pin.version)) .highest

theorem identifier_eq_error {e : SlashesOnly} :
    pin.identifier = .error e ↔ pin.IsFaulty ∧ e = ⟨pin.name⟩ := by
  have hswift : PackageUrl.isEcosystem ecosystem.toList = true := by decide
  rw [Pin.identifier, Identifier.ofCoordinates_eq_error, carried_iff, Pin.IsFaulty]
  simp only [hswift, true_and]
  exact And.comm

theorem recordOf_eq : recordOf file pin = pin.identifier.map (pin.record file) := by
  simp only [recordOf, Pin.identifier]
  cases Identifier.ofCoordinates (some ecosystem) (some pin.name) (nonEmpty? (some pin.version))
    .highest <;> rfl

theorem recordOf_eq_ok {r : Record} :
    recordOf file pin = .ok r ↔ ∃ i, pin.identifier = .ok i ∧ r = pin.record file i := by
  rw [recordOf_eq]
  cases pin.identifier <;> simp [Except.map, eq_comm]

theorem recordOf_eq_error {e : SlashesOnly} :
    recordOf file pin = .error e ↔ pin.IsFaulty ∧ e = ⟨pin.name⟩ := by
  rw [recordOf_eq, ← identifier_eq_error]
  cases pin.identifier <;> simp [Except.map]

theorem exists_recordOf (h : ¬ pin.IsFaulty) (file : Path) : ∃ r, recordOf file pin = .ok r := by
  cases hr : recordOf file pin with
  | error e => exact absurd (recordOf_eq_error.1 hr).1 h
  | ok r => exact ⟨r, rfl⟩

theorem mapM_recordOf_eq_ok {rs : List Record} :
    ps.mapM (recordOf file) = .ok rs ↔
      List.Forall₂ (fun pin r ↦ recordOf file pin = .ok r) ps rs := by
  induction ps generalizing rs with
  | nil => simp [pure, Except.pure, eq_comm]
  | cons pin ps ih =>
    rw [List.mapM_cons, List.forall₂_cons_left_iff]
    cases recordOf file pin with
    | error e => simp [bind, Except.bind]
    | ok r =>
      simp only [← ih]
      cases ps.mapM (recordOf file) <;> simp [bind, Except.bind, pure, Except.pure, eq_comm]

theorem mapM_recordOf_eq_error {e : SlashesOnly} :
    ps.mapM (recordOf file) = .error e ↔
      ∃ pin, ps.find? (·.IsFaulty) = some pin ∧ e = ⟨pin.name⟩ := by
  induction ps with
  | nil => simp [pure, Except.pure]
  | cons pin ps ih =>
    rw [List.mapM_cons]
    by_cases hf : pin.IsFaulty
    · have he : recordOf file pin = .error ⟨pin.name⟩ := recordOf_eq_error.2 ⟨hf, rfl⟩
      simp [he, hf, bind, Except.bind, eq_comm]
    · obtain ⟨r, hr⟩ := exists_recordOf hf file
      rw [List.find?_cons_of_neg (by simpa using hf), ← ih, hr]
      cases ps.mapM (recordOf file) <;> simp [bind, Except.bind, pure, Except.pure]

theorem extract_eq_ok {contents : String} {rs : List Record} :
    extract file contents = .ok rs ↔
      List.Forall₂ (fun pin r ↦ recordOf file pin = .ok r) (pins contents.toList) rs :=
  mapM_recordOf_eq_ok

theorem extract_eq_error {contents : String} {e : SlashesOnly} :
    extract file contents = .error e ↔
      ∃ pin, (pins contents.toList).find? (·.IsFaulty) = some pin ∧ e = ⟨pin.name⟩ :=
  mapM_recordOf_eq_error

theorem extract_returns {contents : String} :
    (∃ rs, extract file contents = .ok rs) ↔ ∀ pin ∈ pins contents.toList, ¬ pin.IsFaulty := by
  have hnone : (pins contents.toList).find? (·.IsFaulty) = none ↔
      ∀ pin ∈ pins contents.toList, ¬ pin.IsFaulty := by simp
  rw [← hnone]
  cases h : extract file contents with
  | error e =>
    obtain ⟨pin, hf, -⟩ := extract_eq_error.1 h
    simp [hf]
  | ok rs =>
    simp only [Except.ok.injEq, exists_eq', true_iff]
    by_contra hf
    obtain ⟨pin, hf⟩ := Option.ne_none_iff_exists'.1 hf
    have he : extract file contents = .error ⟨pin.name⟩ := extract_eq_error.2 ⟨pin, hf, rfl⟩
    rw [h] at he
    cases he

theorem exists_left_of_mem {α β : Type} {R : α → β → Prop} {s : List α} {t : List β}
    (h : List.Forall₂ R s t) {b : β} (hb : b ∈ t) : ∃ a ∈ s, R a b := by
  induction h with
  | nil => cases hb
  | cons hr _ ih =>
    rcases List.mem_cons.1 hb with rfl | hb
    · exact ⟨_, List.mem_cons_self, hr⟩
    · obtain ⟨a, ha, hab⟩ := ih hb
      exact ⟨a, List.mem_cons_of_mem _ ha, hab⟩

theorem exists_pin_of_mem {contents : String} {rs : List Record}
    (h : extract file contents = .ok rs) {r : Record} (hr : r ∈ rs) :
    ∃ pin ∈ pins contents.toList, ∃ i, pin.identifier = .ok i ∧ r = pin.record file i := by
  obtain ⟨pin, hpin, hr⟩ := exists_left_of_mem (extract_eq_ok.1 h) hr
  exact ⟨pin, hpin, recordOf_eq_ok.1 hr⟩

theorem isVirtual_of_mem {contents : String} {rs : List Record}
    (h : extract file contents = .ok rs) {r : Record} (hr : r ∈ rs) : r.isVirtual = true := by
  obtain ⟨pin, -, i, -, rfl⟩ := exists_pin_of_mem h hr
  rfl

theorem isHex_checksums_of_mem {contents : String} {rs : List Record}
    (h : extract file contents = .ok rs) {r : Record} (hr : r ∈ rs) :
    ∃ c, r.checksums = some c ∧ c.IsHex := by
  obtain ⟨pin, -, i, -, rfl⟩ := exists_pin_of_mem h hr
  exact ⟨_, rfl, Digest.Sha1.isHexText_digest _, Digest.Sha256.isHexText_digest _,
    Digest.Md5.isHexText_digest _⟩

end SwiftInventory.Lock
