import SwiftInventory.Proofs.Identification
import SwiftInventory.Proofs.Percent
import SwiftInventory.Proofs.Separation

namespace SwiftInventory.PackageUrl

open Text

def ofSwift (name : String) (version : Option String) : PackageUrl := ⟨"swift", none, name, version⟩

variable {s : List Char} {c : Char} {name : String} {version : Option String}

/-- A character that is neither trimmed nor taken for the start of a query or a fragment. -/
structure IsInner (c : Char) : Prop where
  lt : c.toNat < 0x80
  isBlank : isBlank c = false
  ne_query : c ≠ '?'
  ne_fragment : c ≠ '#'

theorem isInner_of_isWritten (h : Percent.isWritten c = true) : IsInner c ∧ c ≠ '@' := by
  have hlt : c.toNat < 0x80 := by
    rw [Percent.isWritten, Bool.and_eq_true, decide_eq_true_iff] at h
    exact h.1
  obtain ⟨hblank, hquery, hfragment, hat⟩ := forall_ascii (P := fun c ↦ Percent.isWritten c = true →
    isBlank c = false ∧ c ≠ '?' ∧ c ≠ '#' ∧ c ≠ '@') (by decide +kernel) hlt h
  exact ⟨⟨hlt, hblank, hquery, hfragment⟩, hat⟩

theorem isInner_of_mem_encode (h : c ∈ Percent.encode s) : IsInner c :=
  (isInner_of_isWritten (Percent.isWritten_of_mem_encode h)).1

theorem at_not_mem_encode (s : List Char) : '@' ∉ Percent.encode s :=
  fun h ↦ (isInner_of_isWritten (Percent.isWritten_of_mem_encode h)).2 rfl

theorem trim_encode (s : List Char) : trim (Percent.encode s) = Percent.encode s :=
  trim_of_forall fun _ hc ↦ (isInner_of_mem_encode hc).isBlank

theorem slash_not_mem_encode (h : '/' ∉ s) : '/' ∉ Percent.encode s :=
  fun hmem ↦ h (Percent.mem_of_mem_encode (by decide) (by decide) hmem)

theorem encode_ne_nil (h : s ≠ []) : Percent.encode s ≠ [] := by
  intro hnil
  apply h
  rw [← Percent.decode_encode s, hnil]
  rfl

theorem splitScheme_cases (s : List Char) :
    splitScheme s = (none, s) ∨
      ∃ scheme rest, splitScheme s = (some scheme, rest) ∧ s = scheme ++ ':' :: rest := by
  rw [splitScheme]
  split
  · rename_i hspan
    split
    · exact .inr ⟨_, _, rfl, (eq_of_span_cons hspan).1⟩
    · exact .inl rfl
  · exact .inl rfl

theorem splitHost_of_not_mem (h : '/' ∉ s) : splitHost s = ([], s) := by
  rw [splitHost]
  rintro rest rfl
  simp at h

theorem takeWhile_path (h : ∀ c ∈ s, IsInner c) :
    s.takeWhile (fun c ↦ !"?#".toList.contains c) = s := by
  rw [List.takeWhile_eq_self_iff]
  intro c hc
  simp [(h c hc).ne_query, (h c hc).ne_fragment]

theorem location_eq_self (hslash : '/' ∉ s) (h : ∀ c ∈ s, IsInner c) : location s = s := by
  rcases splitScheme_cases s with hs | ⟨scheme, rest, hs, rfl⟩
  · simp only [location, hs, splitHost_of_not_mem hslash, takeWhile_path h, List.isEmpty_nil,
      if_true]
  · have hrest : ∀ c ∈ rest, IsInner c := fun c hc ↦ h c (by simp [hc])
    have hslash' : '/' ∉ rest := fun hmem ↦ hslash (by simp [hmem])
    simp only [location, hs, splitHost_of_not_mem hslash', takeWhile_path hrest,
      List.isEmpty_nil, if_true]

theorem normalName_swift (h : '/' ∉ s) (hblank : ∀ c ∈ s, isBlank c = false) :
    normalName "swift" s = s := by
  have hlower : lowercaseNameTypes.contains "swift" = false := by decide
  have hdashed : ("swift" == "pypi" || "swift" == "hackage") = false := by decide
  have hpub : ("swift" == "pub") = false := by decide
  simp only [normalName, hlower, hdashed, hpub, Bool.false_eq_true, if_false]
  rw [trim_of_forall hblank, stripAll_of_not_mem h]

theorem lowercaseVersion_swift (s : List Char) : lowercaseVersion "swift" s = s :=
  if_neg (by decide)

theorem versionOf_swift {v : String} (hv : isCoordinate v.toList = true) :
    versionOf (normalVersion "swift" v.toList) = some v := by
  rw [normalVersion, lowercaseVersion_swift, trim_of_forall (isBlank_of_isCoordinate hv),
    versionOf, if_neg (by simpa using (isCoordinate_iff.1 hv).1), String.ofList_toList]

def written (name : String) (version : Option String) : List Char :=
  Percent.encode name.toList ++ version.elim [] fun v ↦ '@' :: Percent.encode v.toList

/-- A name and a version, if there is one, without a slash. -/
structure Unslashed (name : String) (version : Option String) : Prop where
  name : '/' ∉ name.toList
  version : ∀ v ∈ version, '/' ∉ v.toList

structure AreCoordinates (name : String) (version : Option String) : Prop where
  name : isCoordinate name.toList = true
  version : ∀ v ∈ version, isCoordinate v.toList = true

theorem splitAtLast?_written :
    splitAtLast? '@' (written name version) =
      version.map fun v ↦ (Percent.encode name.toList, Percent.encode v.toList) := by
  cases version with
  | none =>
    rw [written, Option.elim_none, List.append_nil, splitAtLast?_of_not_mem (at_not_mem_encode _)]
    rfl
  | some v =>
    rw [written, Option.elim_some, splitAtLast?_append (at_not_mem_encode _)]
    rfl

theorem span_typed (rest : List Char) :
    (("swift".toList ++ '/' :: rest).dropWhile (· == '/')).span (· != '/') =
      ("swift".toList, '/' :: rest) := by
  have hdrop : ("swift".toList ++ '/' :: rest).dropWhile (· == '/') =
      "swift".toList ++ '/' :: rest := by
    have hswift : "swift".toList = ['s', 'w', 'i', 'f', 't'] := by decide
    rw [hswift]
    rfl
  rw [hdrop]
  exact span_append (List.all_eq_true.1 (by decide)) (by simp)

section Swift

variable (hslash : Unslashed name version) (h : AreCoordinates name version)

include hslash

theorem isInner_of_mem_written (hc : c ∈ written name version) : IsInner c ∧ c ≠ '/' := by
  rcases List.mem_append.1 hc with hmem | hmem
  · refine ⟨isInner_of_mem_encode hmem, ?_⟩
    rintro rfl
    exact slash_not_mem_encode hslash.name hmem
  · cases version with
    | none => cases hmem
    | some v =>
      rcases List.mem_cons.1 hmem with rfl | hmem
      · exact ⟨by constructor <;> decide, by decide⟩
      · refine ⟨isInner_of_mem_encode hmem, ?_⟩
        rintro rfl
        exact slash_not_mem_encode (hslash.version v rfl) hmem

theorem normalName_encode :
    normalName "swift" (Percent.encode name.toList) = Percent.encode name.toList :=
  normalName_swift (slash_not_mem_encode hslash.name) fun _ hc ↦ (isInner_of_mem_encode hc).isBlank

theorem trim_typed :
    trim ("swift".toList ++ '/' :: written name version) =
      "swift".toList ++ '/' :: written name version := by
  have hblank : "swift".toList.all (!isBlank ·) = true := by decide
  apply trim_of_forall
  intro c hc
  rcases List.mem_append.1 hc with hc | hc
  · simpa using List.all_eq_true.1 hblank c hc
  · rcases List.mem_cons.1 hc with rfl | hc
    · decide
    · exact (isInner_of_mem_written hslash hc).1.isBlank

theorem location_written :
    (location (written name version)).dropWhile (· == '/') = written name version := by
  rw [location_eq_self (fun hc ↦ (isInner_of_mem_written hslash hc).2 rfl)
    fun _ hc ↦ (isInner_of_mem_written hslash hc).1]
  apply dropWhile_eq_self_of_forall
  intro c hc
  simpa using (isInner_of_mem_written hslash hc).2

include h

theorem toList_text :
    (ofSwift name version).text.toList = "pkg:swift/".toList ++ written name version := by
  have htype : String.ofList (normalType (Percent.encode "swift".toList)) = "swift" := by
    decide +kernel
  have hfront : "pkg:" ++ "swift" ++ "/" = "pkg:swift/" := by decide
  simp only [text, ofSwift, htype, normalName_encode hslash, hfront, String.toList_append,
    String.toList_ofList, List.nil_append]
  rw [written]
  cases version with
  | none => rfl
  | some v =>
    simp only [lowercaseVersion_swift, Option.elim_some,
      trim_of_forall (isBlank_of_isCoordinate (h.version v rfl))]

theorem ofParts?_swift : ofParts? "swift" name version = some (ofSwift name version) := by
  have htype : String.ofList (normalType "swift".toList) = "swift" := by decide +kernel
  have hname : normalName "swift" name.toList = name.toList :=
    normalName_swift hslash.name (isBlank_of_isCoordinate h.name)
  obtain ⟨c, s, hs⟩ := List.exists_cons_of_ne_nil (isCoordinate_iff.1 h.name).1
  have hversion : version.bind (fun v ↦ versionOf (normalVersion "swift" v.toList)) = version :=
    (Option.bind_congr fun v hv ↦ versionOf_swift (h.version v hv)).trans (Option.bind_fun_some _)
  simp only [ofParts?, htype, hname, hversion]
  rw [hs]
  simp only [← hs, String.ofList_toList]
  rfl

theorem segments_encode :
    (((trim (Percent.encode name.toList)).splitOn '/').filter fun p ↦ !p.isEmpty).reverse =
      [Percent.encode name.toList] := by
  rw [trim_encode, List.splitOn_eq_singleton (slash_not_mem_encode hslash.name)]
  simp [encode_ne_nil (isCoordinate_iff.1 h.name).1]

theorem parse_text_swift :
    parse (ofSwift name version).text = .ok (ofSwift name version) := by
  have hfront : "pkg:".toList.isPrefixOf? (ofSwift name version).text.toList =
      some ("swift".toList ++ '/' :: written name version) := by
    have hpkg : "pkg:swift/".toList = "pkg:".toList ++ "swift".toList ++ ['/'] := by decide
    rw [toList_text hslash h, List.isPrefixOf?_eq_some_iff_append_eq, hpkg]
    simp only [List.append_assoc, List.singleton_append]
  have hempty : ("swift".toList.isEmpty || ('/' :: written name version).isEmpty) = false := by
    rw [List.isEmpty_cons, Bool.or_false]
    decide
  have hall : (!"swift".toList.all isTypeChar) = false := by decide
  have htype : lowercase "swift".toList = "swift".toList := by decide
  obtain ⟨c, s, hs⟩ := List.exists_cons_of_ne_nil (isCoordinate_iff.1 h.name).1
  have hname : normalName "swift" (Percent.decode (Percent.encode name.toList)) = c :: s := by
    rw [Percent.decode_encode, normalName_swift hslash.name (isBlank_of_isCoordinate h.name), hs]
  have hnamed : String.ofList (c :: s) = name := by rw [← hs, String.ofList_toList]
  simp only [parse, hfront, trim_typed hslash, span_typed, htype, List.drop_one, List.tail_cons,
    location_written hslash, hempty, hall, splitAtLast?_written, String.ofList_toList,
    Bool.false_eq_true, if_false]
  cases version with
  | none =>
    have hpath : written name none = Percent.encode name.toList := List.append_nil _
    simp only [Option.map_none, hpath, segments_encode hslash h, hname, hnamed]
    rfl
  | some v =>
    have hversion : versionOf (normalVersion "swift" (Percent.decode (Percent.encode v.toList))) =
        some v := by
      rw [Percent.decode_encode, versionOf_swift (h.version v rfl)]
    simp only [Option.map_some, segments_encode hslash h, hname, hnamed, Option.bind_some, hversion]
    rfl

theorem checked_swift : checked (some "swift") (some name) version = .ok (ofSwift name version) :=
  checked_eq_ok.2 ⟨_, _, rfl, rfl, by decide, h.name, h.version, ofParts?_swift hslash h,
    parse_text_swift hslash h⟩

end Swift

theorem not_isSlashes_of_not_mem (h : '/' ∉ s) : ¬ IsSlashes s := by
  rintro ⟨hne, hall⟩
  obtain ⟨c, s, rfl⟩ := List.exists_cons_of_ne_nil hne
  exact h (hall c List.mem_cons_self ▸ List.mem_cons_self)

theorem isCoordinate_toList :
    isCoordinate name.toList = true ↔
      name ≠ "" ∧ ∀ c ∈ name.toList, isBlankOrControl c = false := by
  rw [isCoordinate_iff, ne_eq, String.toList_eq_nil_iff]

end SwiftInventory.PackageUrl

namespace SwiftInventory.Identifier

open Text PackageUrl

/-- A Swift package has a canonical identifier exactly when its name and its version are there and
free of blanks, and then the identifier says no less and no more than they do. -/
theorem swift_canonical (name : String) (version : Option String) (confidence : Confidence)
    (hname : '/' ∉ name.toList) (hversion : ∀ v ∈ version, '/' ∉ v.toList) :
    ∃ i, ofCoordinates (some "swift") (some name) version confidence = .ok i ∧
      (i.isFallback = false ↔
        (name ≠ "" ∧ ∀ c ∈ name.toList, isBlankOrControl c = false) ∧
          ∀ v ∈ version, v ≠ "" ∧ ∀ c ∈ v.toList, isBlankOrControl c = false) ∧
      (i.isFallback = false →
        ∃ url : PackageUrl, i = packageUrl url confidence ∧ url.type = "swift" ∧ url.scope = none ∧
          url.name = name ∧ url.version = version ∧
          "pkg:swift/".toList <+: i.value.toList ∧ (∀ c ∈ i.value.toList, c.toNat < 0x80) ∧
          parse i.value = .ok url) := by
  have hslash : Unslashed name version := ⟨hname, hversion⟩
  simp only [← isCoordinate_toList]
  by_cases h : AreCoordinates name version
  · refine ⟨packageUrl (ofSwift name version) confidence, ?_, ?_, fun _ ↦ ?_⟩
    · rw [ofCoordinates, checked_swift hslash h]
    · exact iff_of_true rfl ⟨h.name, h.version⟩
    · refine ⟨_, rfl, rfl, rfl, rfl, rfl, ?_, ?_, parse_text_swift hslash h⟩
      · rw [value, toList_text hslash h]
        exact List.prefix_append _ _
      · rw [value, toList_text hslash h]
        intro c hc
        have hfront : "pkg:swift/".toList.all (·.toNat < 0x80) = true := by decide
        rcases List.mem_append.1 hc with hc | hc
        · simpa using List.all_eq_true.1 hfront c hc
        · exact (isInner_of_mem_written hslash hc).1.lt
  · have hcoordinates : ¬ (isCoordinate name.toList = true ∧
        ∀ v ∈ version, isCoordinate v.toList = true) := fun hc ↦ h ⟨hc.1, hc.2⟩
    refine ⟨generic (fallbackText (some "swift") (some name) version) confidence, ?_,
      iff_of_false Bool.noConfusion hcoordinates, Bool.noConfusion⟩
    rw [ofCoordinates]
    split
    · rename_i url hurl
      obtain ⟨e, n, -, hn, -, hcoordinate, hversions, -⟩ := checked_eq_ok.1 hurl
      cases hn
      exact absurd ⟨hcoordinate, hversions⟩ hcoordinates
    · rename_i hfault
      exact absurd (checked_eq_slashesOnly.1 hfault).2.1 (not_isSlashes_of_not_mem hname)
    · rfl

theorem swift_canonical_reserved :
    ('/' ∉ "é:@?#%20[\"'".toList ∧ ∀ v ∈ some "1@2?", '/' ∉ v.toList) ∧
      ∃ i, ofCoordinates (some "swift") (some "é:@?#%20[\"'") (some "1@2?") .highest = .ok i ∧
        i.isFallback = false ∧
        parse i.value = .ok ⟨"swift", none, "é:@?#%20[\"'", some "1@2?"⟩ := by
  have hname : '/' ∉ "é:@?#%20[\"'".toList := by decide
  have hversion : ∀ v ∈ some "1@2?", '/' ∉ v.toList := by
    rintro _ ⟨⟩
    decide
  obtain ⟨i, hi, hiff, hurl⟩ :=
    swift_canonical "é:@?#%20[\"'" (some "1@2?") .highest hname hversion
  have hcanonical : i.isFallback = false := by
    refine hiff.2 ⟨isCoordinate_toList.1 (by decide), ?_⟩
    rintro _ ⟨⟩
    exact isCoordinate_toList.1 (by decide)
  obtain ⟨⟨type, scope, name, version⟩, -, rfl, rfl, rfl, rfl, -, -, hread⟩ := hurl hcanonical
  exact ⟨⟨hname, hversion⟩, i, hi, hcanonical, hread⟩

end SwiftInventory.Identifier
