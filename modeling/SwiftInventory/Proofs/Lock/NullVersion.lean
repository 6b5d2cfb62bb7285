import SwiftInventory.Proofs.Lock.VersionLine
import SwiftInventory.Proofs.PackageUrl.Denotation

namespace SwiftInventory

def Identifier.Carries (version : String) : Identifier → Prop
  | packageUrl url _ => url.version = some version
  | generic value _ => ∃ package, value = package ++ "@" ++ version

namespace Lock

variable {file : Path} {before block : List Char} {pin : Pin} {ps : List Pin} {r : Record}

theorem Pin.carries_of_identifier {i : Identifier} (h : pin.identifier = .ok i)
    (hversion : pin.version ≠ "") : i.Carries pin.version := by
  have hsome : nonEmpty? (some pin.version) = some pin.version := by simp [nonEmpty?, hversion]
  have hkept : ecosystem ∉ PackageUrl.lowercaseVersionTypes := by decide
  rw [Pin.identifier, hsome, Identifier.ofCoordinates] at h
  split at h
  · rename_i url hchecked
    obtain rfl := Except.ok.inj h
    rw [Identifier.Carries, PackageUrl.version_of_checked hchecked, Option.map_some, if_neg hkept]
  · cases h
  · obtain rfl := Except.ok.inj h
    exact ⟨ecosystem ++ ":" ++ pin.name, by rw [Identifier.fallbackText]; rfl⟩

/-- The record that a file with both texts gives for the first pin of the second one. -/
def RecordBehind (file : Path) (before block : List Char) (r : Record) : Prop :=
  ∃ rs, extract file (String.ofList (before ++ block)) = .ok rs ∧
    rs[(pins before).length]? = some r

theorem recordBehind_iff (hpins : pins (before ++ block) = pins before ++ pin :: ps) :
    RecordBehind file before block r ↔
      (∀ pin ∈ pins (before ++ block), ¬ pin.IsFaulty) ∧ recordOf file pin = .ok r := by
  have hlist : (String.ofList (before ++ block)).toList = before ++ block := String.toList_ofList
  have hread {rs : List Record} (hrs : extract file (String.ofList (before ++ block)) = .ok rs) :
      ∃ r', rs[(pins before).length]? = some r' ∧ recordOf file pin = .ok r' := by
    have hall := extract_eq_ok.1 hrs
    rw [hlist, hpins] at hall
    have hlength := hall.length_eq
    have hlt : (pins before).length < (pins before ++ pin :: ps).length := by simp
    have hget := hall.get hlt (hlength ▸ hlt)
    exact ⟨_, List.getElem?_eq_getElem (hlength ▸ hlt), by simpa using hget⟩
  rw [← hlist, ← extract_returns]
  constructor
  · rintro ⟨rs, hrs, hr⟩
    obtain ⟨r', hr', hrecord⟩ := hread hrs
    obtain rfl := Option.some.inj (hr.symm.trans hr')
    exact ⟨⟨rs, hrs⟩, hrecord⟩
  · rintro ⟨⟨rs, hrs⟩, hrecord⟩
    obtain ⟨r', hr', hrecord'⟩ := hread hrs
    obtain rfl := Except.ok.inj (hrecord.symm.trans hrecord')
    exact ⟨rs, hrs, hr'⟩

theorem exists_recordBehind (hpins : pins (before ++ block) = pins before ++ pin :: ps) :
    (∃ r, RecordBehind file before block r) ↔
      ∀ pin ∈ pins (before ++ block), ¬ pin.IsFaulty := by
  have hmem : pin ∈ pins (before ++ block) := by simp [hpins]
  simp only [recordBehind_iff hpins, exists_and_left]
  exact and_iff_left_of_imp fun h ↦ exists_recordOf (h pin hmem) file

theorem recordOf_carries (h : recordOf file pin = .ok r) (hversion : pin.version ≠ "") :
    ∃ i, r.version = some pin.version ∧ r.displayName = some (pin.name ++ ":" ++ pin.version) ∧
      r.identifiers = [i] ∧ i.Carries pin.version := by
  obtain ⟨i, hi, rfl⟩ := recordOf_eq_ok.1 h
  exact ⟨i, rfl, rfl, rfl, Pin.carries_of_identifier hi hversion⟩

theorem version_of_recordOf (h : recordOf file pin = .ok r) : r.version = some pin.version := by
  obtain ⟨i, -, rfl⟩ := recordOf_eq_ok.1 h
  rfl

/-- For every block of every text, `null` in the place of its version gives the record the version
`null` everywhere: by itself, in the name shown and in the identifier. So the record is the same as
with the word in quotes, unless a blank stands before a comma. -/
theorem null_read_as_version (file : Path) {before start name value rest : List Char}
    (hbefore : WholeLines before) (h : BlockAt start name value rest) :
    ∃ front, start = front ++ (value ++ rest) ∧
      (∀ value', IsValue value' →
        ((∃ r, RecordBehind file before (front ++ (value' ++ rest)) r) ↔
          ∀ pin ∈ pins (before ++ (front ++ (value' ++ rest))), ¬ pin.IsFaulty)) ∧
      ∀ t : Tail,
        (∀ r, RecordBehind file before (front ++ (bareNull ++ t.chars ++ rest)) r →
          ∃ version i, version = String.ofList (bareNull ++ t.kept) ∧ r.version = some version ∧
            r.displayName = some (String.ofList (unquote name) ++ ":" ++ version) ∧
            r.identifiers = [i] ∧ i.Carries version) ∧
        (∀ (v : LineText) (r : Record),
          RecordBehind file before (front ++ (inQuotes v.chars ++ t.chars ++ rest)) r →
            (r.version = some (String.ofList v.chars) ↔ ¬ t.IsLoose)) ∧
        ∀ r r' : Record, RecordBehind file before (front ++ (bareNull ++ t.chars ++ rest)) r →
          RecordBehind file before (front ++ (inQuotes bareNull ++ t.chars ++ rest)) r' →
            (r = r' ↔ ¬ t.IsLoose) := by
  obtain ⟨front, hstart, hread⟩ := pins_in_place hbefore h
  refine ⟨front, hstart, fun value' hvalue' ↦ exists_recordBehind (hread value' hvalue'),
    fun t ↦ ?_⟩
  have hnull := hread _ (isValue_null.append_tail (by decide) t)
  have hquoted (v : LineText) := hread _ (isValue_quoted_tail v t)
  rw [ofValues_null] at hnull
  simp only [ofValues_quoted] at hquoted
  refine ⟨fun r hr ↦ ?_, fun v r hr ↦ ?_, fun r r' hr hr' ↦ ?_⟩
  · obtain ⟨-, hrecord⟩ := (recordBehind_iff hnull).1 hr
    obtain ⟨i, hsaid⟩ := recordOf_carries hrecord (by simp [bareNull])
    exact ⟨_, i, rfl, hsaid⟩
  · obtain ⟨-, hrecord⟩ := (recordBehind_iff (hquoted v)).1 hr
    rw [version_of_recordOf hrecord, Option.some_inj, String.ofList_inj,
      List.append_right_eq_self, t.leak_eq_nil_iff]
  · obtain ⟨-, hrecord⟩ := (recordBehind_iff hnull).1 hr
    obtain ⟨-, hrecord'⟩ := (recordBehind_iff (hquoted ⟨bareNull, by decide⟩)).1 hr'
    rw [← t.kept_eq_leak_iff]
    constructor
    · rintro rfl
      have hsame := (version_of_recordOf hrecord).symm.trans (version_of_recordOf hrecord')
      exact List.append_cancel_left (String.ofList_inj.1 (Option.some.inj hsame))
    · intro hsame
      rw [hsame, hrecord'] at hrecord
      exact (Except.ok.inj hrecord).symm

theorem null_version_shown :
    ∃ r, RecordBehind (.ofString "Package.resolved") [] (smallText bareNull) r ∧
      r.version = some "null" ∧ r.displayName = some "A:null" ∧
      ∃ i, r.identifiers = [i] ∧ i.Carries "null" := by
  have hfaultless : ∀ pin ∈ pins (smallText bareNull), ¬ pin.IsFaulty := by
    have hpins : pins (smallText bareNull) = [⟨"A", "null"⟩] := by decide +kernel
    rw [hpins]
    decide
  let t : Tail := ⟨[], by simp, by decide⟩
  obtain ⟨front, hstart, hexists, hread⟩ :=
    null_read_as_version (.ofString "Package.resolved") (.inl rfl) (blockAt_smallText isValue_null)
  have hexists' := hexists bareNull isValue_null
  have hread' := (hread t).1
  have htext : front ++ (bareNull ++ t.chars ++ []) = smallText bareNull := hstart.symm
  rw [← hstart] at hexists'
  rw [htext] at hread'
  obtain ⟨r, hr⟩ := hexists'.2 hfaultless
  obtain ⟨_, i, rfl, hversion, hname, hi, hcarries⟩ := hread' r hr
  exact ⟨r, hr, hversion, hname, i, hi, hcarries⟩

theorem null_same_as_quoted :
    BlockAt (smallText bareNull) "\"A\"".toList bareNull [] ∧
    BlockAt (smallText (inQuotes bareNull)) "\"A\"".toList (inQuotes bareNull) [] ∧
    ∃ r, RecordBehind (.ofString "Package.resolved") [] (smallText bareNull) r ∧
      RecordBehind (.ofString "Package.resolved") [] (smallText (inQuotes bareNull)) r ∧
      r.version = some "null" ∧ r.displayName = some "A:null" ∧
      r.identifiers = [.packageUrl ⟨"swift", none, "A", some "null"⟩ .highest] := by
  have hat := blockAt_smallText isValue_null
  have hat' := blockAt_smallText (isValue_quoted ⟨bareNull, by decide⟩)
  let pin : Pin := ⟨"A", "null"⟩
  have hpins : pins ([] ++ smallText bareNull) = pins [] ++ pin :: [] := by decide +kernel
  have hpins' : pins ([] ++ smallText (inQuotes bareNull)) = pins [] ++ pin :: [] := by
    decide +kernel
  have hfaultless : ∀ p ∈ pins [] ++ pin :: [], ¬ p.IsFaulty := by decide
  have hi : pin.identifier = .ok (.packageUrl ⟨"swift", none, "A", some "null"⟩ .highest) := by
    decide +kernel
  have hrecord : recordOf (.ofString "Package.resolved") pin = .ok (pin.record _ _) :=
    recordOf_eq_ok.2 ⟨_, hi, rfl⟩
  refine ⟨hat, hat', _, (recordBehind_iff hpins).2 ⟨?_, hrecord⟩,
    (recordBehind_iff hpins').2 ⟨?_, hrecord⟩, rfl, rfl, rfl⟩
  · rw [hpins]
    exact hfaultless
  · rw [hpins']
    exact hfaultless

end Lock

end SwiftInventory
