import SwiftInventory.Proofs.Json.ReadBack
import SwiftInventory.Proofs.Scan.Identifiers
import SwiftInventory.Proofs.WrittenPath
import SwiftInventory.Report.Json

namespace SwiftInventory

open Json (numbers elementNumbers memberNumbers)

variable {α : Type}

theorem eq_of_map_eq {β : Type} {f : α → β} {l l' : List α} (h : l.map f = l'.map f)
    (hinj : ∀ a ∈ l, ∀ a' ∈ l', f a = f a' → a = a') : l = l' := by
  induction l generalizing l' with
  | nil => exact (List.map_eq_nil_iff.1 h.symm).symm
  | cons a l ih =>
    obtain ⟨a', l', rfl, ha, hl⟩ := List.map_eq_cons_iff.1 h.symm
    rw [hinj a List.mem_cons_self a' List.mem_cons_self ha.symm, ih hl.symm fun b hb b' hb' ↦
      hinj b (List.mem_cons_of_mem _ hb) b' (List.mem_cons_of_mem _ hb')]

namespace Json

def member? (key : String) : Json → Option Json
  | object members => members.lookup key
  | _ => none

theorem elementNumbers_map (f : α → Json) (h : ∀ a, numbers (f a) = []) (l : List α) :
    elementNumbers (l.map f) = [] := by
  induction l with
  | nil => rfl
  | cons a l ih => rw [List.map_cons, elementNumbers, h, ih, List.nil_append]

theorem memberNumbers_strings (members : List (String × String)) :
    memberNumbers (members.map fun m ↦ (m.1, string m.2)) = [] := by
  induction members with
  | nil => rfl
  | cons m members ih => rw [List.map_cons, memberNumbers, ih]; rfl

theorem ofOption_injective : Function.Injective ofOption := by
  intro s s' h
  cases s <;> cases s' <;> simp_all [ofOption]

end Json

theorem Confidence.label_injective : Function.Injective Confidence.label := by
  intro c c' h
  cases c <;> cases c' <;> first | rfl | exact absurd h (by decide)

theorem EvidenceKind.label_injective : Function.Injective EvidenceKind.label := by
  intro kind kind' h
  cases kind <;> cases kind' <;> first | rfl | exact absurd h (by decide)

theorem Evidence.toJson_injective : Function.Injective Evidence.toJson := by
  intro e e' h
  obtain ⟨kind, source, name, value, confidence⟩ := e
  simp only [toJson, Json.object.injEq, List.cons.injEq, Prod.mk.injEq, Json.string.injEq,
    true_and, and_true] at h
  obtain ⟨hkind, rfl, rfl, rfl, hconfidence⟩ := h
  rw [EvidenceKind.label_injective hkind, Confidence.label_injective hconfidence]

theorem Checksums.toJson_injective : Function.Injective Checksums.toJson := by
  intro c c' h
  obtain ⟨sha1, sha256, md5⟩ := c
  simp only [toJson, Json.object.injEq, List.cons.injEq, Prod.mk.injEq, Json.string.injEq,
    true_and, and_true] at h
  obtain ⟨rfl, rfl, rfl⟩ := h
  rfl

namespace Identifier

def ofShown (shown : Bool × String × Confidence) : Json :=
  .object [
    ("type", .string (if shown.1 then "generic" else "purl")),
    ("value", .string shown.2.1),
    ("confidence", .string shown.2.2.label)]

theorem toJson_eq_ofShown : toJson = fun i ↦ ofShown i.shown := by
  funext i
  cases i <;> rfl

theorem ofShown_injective : Function.Injective ofShown := by
  intro (isFallback, value, confidence) (isFallback', value', confidence') h
  simp only [ofShown, Json.object.injEq, List.cons.injEq, Prod.mk.injEq, Json.string.injEq,
    true_and, and_true] at h
  obtain ⟨hkind, rfl, hconfidence⟩ := h
  have hkind : isFallback = isFallback' := by cases isFallback <;> cases isFallback' <;> simp_all
  rw [hkind, Confidence.label_injective hconfidence]

end Identifier

namespace Record

variable {r r' : Record}

/-- The members of a record. A text that is not there is shown as a null, and so are digests. -/
theorem members_toJson (r : Record) :
    (∃ members, r.toJson = .object members ∧ members.map (·.1) =
      ["name", "version", "ecosystem", "display_name", "package_path", "file_path", "actual_file",
        "virtual", "identifiers", "evidence", "checksums"]) ∧
    (∀ member ∈ [("name", r.name), ("version", r.version), ("ecosystem", r.ecosystem),
        ("display_name", r.displayName), ("package_path", r.packagePath)],
      r.toJson.member? member.1 = some (member.2.elim .null .string)) ∧
    r.toJson.member? "checksums" = some (r.checksums.elim .null Checksums.toJson) := by
  have htext : ∀ s, Json.ofOption s = s.elim .null .string := fun s ↦ by cases s <;> rfl
  refine ⟨⟨_, rfl, rfl⟩, ?_, ?_⟩
  · simp only [← htext, List.forall_mem_cons, List.not_mem_nil, false_imp_iff, implies_true,
      and_true]
    exact ⟨rfl, rfl, rfl, rfl, rfl⟩
  · cases hc : r.checksums <;> simp only [toJson, hc] <;> rfl

/-- Records that differ at most in identifiers that look alike. -/
structure LooksLike (r r' : Record) : Prop where
  besides : { r with identifiers := [] } = { r' with identifiers := [] }
  identifiers : r.identifiers.map Identifier.shown = r'.identifiers.map Identifier.shown

theorem looksLike_of_toJson (h : r.toJson = r'.toJson) : r.LooksLike r' := by
  simp only [toJson, Json.object.injEq, List.cons.injEq, Prod.mk.injEq, Json.string.injEq,
    Json.bool.injEq, Json.array.injEq, true_and, and_true] at h
  obtain ⟨hname, hversion, hecosystem, hdisplay, hpackage, hfile, hactual, hvirtual,
    hidentifiers, hevidence, hchecksums⟩ := h
  constructor
  · rw [Record.mk.injEq]
    have hchecksums : r.checksums = r'.checksums := by
      cases hc : r.checksums <;> cases hc' : r'.checksums <;> simp only [hc, hc'] at hchecksums
      · rfl
      · cases hchecksums
      · cases hchecksums
      · rw [Checksums.toJson_injective hchecksums]
    exact ⟨Path.toString_injective hfile, Path.toString_injective hactual,
      Json.ofOption_injective hecosystem, Json.ofOption_injective hname,
      Json.ofOption_injective hversion, Json.ofOption_injective hpackage,
      Json.ofOption_injective hdisplay, rfl,
      List.map_injective_iff.2 Evidence.toJson_injective hevidence, hchecksums, hvirtual⟩
  · rw [Identifier.toJson_eq_ofShown] at hidentifiers
    refine List.map_injective_iff.2 Identifier.ofShown_injective ?_
    rw [List.map_map, List.map_map]
    exact hidentifiers

theorem LooksLike.eq (h : r.LooksLike r') (hr : ∀ i ∈ r.identifiers, i.IsBuilt)
    (hr' : ∀ i ∈ r'.identifiers, i.IsBuilt) : r = r' := by
  have hidentifiers := eq_of_map_eq h.identifiers fun i hi i' hi' ↦
    Identifier.eq_of_shown_eq (hr i hi) (hr' i' hi')
  have hbesides := h.besides
  rw [Record.mk.injEq] at hbesides
  obtain ⟨hfile, hactual, hecosystem, hname, hversion, hpackage, hdisplay, -, hevidence,
    hchecksums, hvirtual⟩ := hbesides
  cases r
  cases r'
  simp_all

theorem numbers_toJson (r : Record) : numbers r.toJson = [] := by
  have hoption : ∀ s, numbers (Json.ofOption s) = [] := fun s ↦ by cases s <;> rfl
  cases hc : r.checksums <;>
    simp only [toJson, hc, Checksums.toJson, numbers, memberNumbers, hoption, List.append_nil,
      Json.elementNumbers_map Identifier.toJson fun _ ↦ rfl,
      Json.elementNumbers_map Evidence.toJson fun _ ↦ rfl]

end Record

namespace Report

theorem Failure.toJson_injective : Function.Injective Failure.toJson := by
  intro f f' h
  obtain ⟨path, message⟩ := f
  simp only [toJson, Json.object.injEq, List.cons.injEq, Prod.mk.injEq, Json.string.injEq,
    true_and, and_true] at h
  obtain ⟨hpath, rfl⟩ := h
  rw [Path.toString_injective hpath]

variable (timestamp : String) (scanTime : Number) (records records' : List Record)
  (failures failures' : List Failure) (metadata metadata' : List (String × String))

def withTexts : Json :=
  toJson timestamp records failures scanTime (metadata.map fun m ↦ (m.1, .string m.2))

theorem withTexts_members :
    (withTexts timestamp scanTime records failures metadata).member? "dependencies" =
        some (.array (records.map Record.toJson)) ∧
      (withTexts timestamp scanTime records failures metadata).member? "errors" =
        some (.array (failures.map Failure.toJson)) ∧
      (withTexts timestamp scanTime records failures metadata).member? "metadata" =
        (if metadata = [] then none else some (.object (metadata.map fun m ↦ (m.1, .string m.2)))) ∧
      ((withTexts timestamp scanTime records failures metadata).member? "scan_info").bind
        (·.member? "total_dependencies") = some (.ofNat records.length) := by
  refine ⟨rfl, rfl, ?_, rfl⟩
  cases metadata <;> rfl

variable {scanTime}

theorem isWritable_withTexts (h : scanTime.IsWritable) :
    (withTexts timestamp scanTime records failures metadata).IsWritable := by
  have hrecords := Json.elementNumbers_map Record.toJson Record.numbers_toJson records
  have hfailures := Json.elementNumbers_map Failure.toJson (fun _ ↦ rfl) failures
  have hmetadata := Json.memberNumbers_strings metadata
  have hnumbers : numbers (withTexts timestamp scanTime records failures metadata) =
      [.whole records.length, scanTime] := by
    simp only [withTexts, toJson]
    split <;> simp [numbers, memberNumbers, scanInfo, Json.ofNat, hrecords, hfailures, hmetadata]
  intro n hn
  rw [hnumbers] at hn
  rcases List.mem_cons.1 hn with rfl | hn
  · trivial
  · rwa [List.mem_singleton.1 hn]

variable {timestamp records records' failures failures' metadata metadata'}

theorem eq_of_text_eq (hscan : scanTime.IsWritable)
    (h : (withTexts timestamp scanTime records failures metadata).text =
      (withTexts timestamp scanTime records' failures' metadata').text) :
    records.map Record.toJson = records'.map Record.toJson ∧ failures = failures' ∧
      metadata = metadata' := by
  have hreport := Json.text_injective (isWritable_withTexts timestamp records failures metadata hscan)
    (isWritable_withTexts timestamp records' failures' metadata' hscan) h
  obtain ⟨hrecords, hfailures, hmetadata, -⟩ :=
    withTexts_members timestamp scanTime records failures metadata
  obtain ⟨hrecords', hfailures', hmetadata', -⟩ :=
    withTexts_members timestamp scanTime records' failures' metadata'
  rw [hreport, hrecords', Option.some.injEq, Json.array.injEq] at hrecords
  rw [hreport, hfailures', Option.some.injEq, Json.array.injEq] at hfailures
  rw [hreport, hmetadata'] at hmetadata
  refine ⟨hrecords.symm,
    (List.map_injective_iff.2 Failure.toJson_injective hfailures).symm, ?_⟩
  -- An empty map and no map at all are both left out of the report.
  have hstrings : Function.Injective fun m : String × String ↦ (m.1, Json.string m.2) := by
    rintro ⟨key, value⟩ ⟨key', value'⟩ h
    simpa using h
  by_cases hm : metadata = [] <;> by_cases hm' : metadata' = [] <;>
    simp only [hm, hm', if_true, if_false, reduceCtorEq, Option.some.injEq,
      Json.object.injEq] at hmetadata
  · rw [hm, hm']
  · exact (List.map_injective_iff.2 hstrings hmetadata).symm

theorem looksLike_of_map_toJson (h : records.map Record.toJson = records'.map Record.toJson) :
    List.Forall₂ Record.LooksLike records records' := by
  rw [← List.forall₂_eq_eq_eq, List.forall₂_map_left_iff, List.forall₂_map_right_iff] at h
  exact h.imp fun _ _ ↦ Record.looksLike_of_toJson

theorem eq_of_map_toJson (h : records.map Record.toJson = records'.map Record.toJson)
    (hbuilt : ∀ r ∈ records ++ records', ∀ i ∈ r.identifiers, i.IsBuilt) : records = records' :=
  eq_of_map_eq h fun r hr r' hr' heq ↦ (Record.looksLike_of_toJson heq).eq
    (hbuilt r (List.mem_append_left _ hr)) (hbuilt r' (List.mem_append_right _ hr'))

variable (timestamp records failures metadata)

/-- A report is a text of the grammar, and reading it gives back what was reported. What has the
same report looks alike, and is the same where identifiers are made from coordinates, as they are
in every scan. -/
theorem withTexts_lossless (hscan : scanTime.IsWritable) :
    Json.IsText (withTexts timestamp scanTime records failures metadata).text ∧
    (∃ j, Json.parse? (withTexts timestamp scanTime records failures metadata).text = some j ∧
      j = withTexts timestamp scanTime records failures metadata ∧
      j.member? "dependencies" = some (.array (records.map Record.toJson)) ∧
      j.member? "errors" = some (.array (failures.map Failure.toJson)) ∧
      j.member? "metadata" = (if metadata = [] then none
        else some (.object (metadata.map fun m ↦ (m.1, .string m.2)))) ∧
      (j.member? "scan_info").bind (·.member? "total_dependencies") =
        some (.ofNat records.length)) ∧
    ∀ records' failures' metadata',
      (withTexts timestamp scanTime records failures metadata).text =
          (withTexts timestamp scanTime records' failures' metadata').text →
        records.map Record.toJson = records'.map Record.toJson ∧
        List.Forall₂ Record.LooksLike records records' ∧
        failures = failures' ∧ metadata = metadata' ∧
        ((∀ r ∈ records ++ records', ∀ i ∈ r.identifiers, i.IsBuilt) → records = records') := by
  have hwritable := isWritable_withTexts timestamp records failures metadata hscan
  refine ⟨Json.isText_text hwritable, ⟨_, Json.parse?_text hwritable, rfl,
    withTexts_members timestamp scanTime records failures metadata⟩, ?_⟩
  intro records' failures' metadata' h
  obtain ⟨hrecords, hfailures, hmetadata⟩ := eq_of_text_eq hscan h
  exact ⟨hrecords, looksLike_of_map_toJson hrecords, hfailures, hmetadata,
    eq_of_map_toJson hrecords⟩

def quarter : Number := .double (.finite ⟨false, 4503599627370496, -54⟩)

def awkward : Record :=
  { Record.ofFile (.ofString "Kit/Package.swift") false with name := some "\"Kit\"\\\n\x01é" }

theorem awkward_lossless :
    quarter.IsWritable ∧
    Json.IsText (withTexts "2024-05-06" quarter [awkward] [⟨.ofString "a", "b"⟩] [("c", "\t")]).text ∧
    ∃ j, Json.parse?
        (withTexts "2024-05-06" quarter [awkward] [⟨.ofString "a", "b"⟩] [("c", "\t")]).text =
          some j ∧
      j.member? "dependencies" = some (.array [awkward.toJson]) := by
  have hquarter : quarter.IsWritable := ⟨by decide, by decide, by decide, by decide⟩
  obtain ⟨htext, ⟨j, hread, -, hrecords, -⟩, -⟩ := withTexts_lossless "2024-05-06" [awkward]
    [⟨.ofString "a", "b"⟩] [("c", "\t")] hquarter
  exact ⟨hquarter, htext, j, hread, hrecords⟩

end Report

/-- Two scans that come to their end with the same report have found the same. -/
theorem scans_eq_of_report_eq {reg reg' : Registry} {t t' : FileTree} {config config' : ScanConfig}
    {paths paths' : List Path} {timestamp : String} {scanTime : Number}
    {failures failures' : List Report.Failure} {metadata metadata' : List (String × String)}
    (hscan : scanTime.IsWritable) (hend : (reg.analyzeFiles t config paths {}).fault = none)
    (hend' : (reg'.analyzeFiles t' config' paths' {}).fault = none)
    (h : (Report.withTexts timestamp scanTime
        (reg.analyzeFiles t config paths {}).inventory.records failures metadata).text =
      (Report.withTexts timestamp scanTime
        (reg'.analyzeFiles t' config' paths' {}).inventory.records failures' metadata').text) :
    (reg.analyzeFiles t config paths {}).inventory.records =
        (reg'.analyzeFiles t' config' paths' {}).inventory.records ∧
      failures = failures' := by
  obtain ⟨hrecords, hfailures, -⟩ := Report.eq_of_text_eq hscan h
  refine ⟨Report.eq_of_map_toJson hrecords fun r hr ↦ ?_, hfailures⟩
  rcases List.mem_append.1 hr with hr | hr
  · exact scan_identifiers_isBuilt reg t config paths hend r hr
  · exact scan_identifiers_isBuilt reg' t' config' paths' hend' r hr

end SwiftInventory
