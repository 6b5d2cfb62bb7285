import SwiftInventory.Proofs.Identification

namespace SwiftInventory.PackageUrl

open Text

structure IsType (s : List Char) : Prop where
  ne_nil : s ≠ []
  chars : ∀ c ∈ s, c.isAlphanum = true ∨ c = '+' ∨ c = '.' ∨ c = '-'
  start : ∀ c ∈ s.head?, c.isDigit = false

inductive Spelling
  | asGiven
  | small
  | dashed
  | smallDashed
  | smallPlain
deriving DecidableEq

namespace Spelling

def of (type : String) : Spelling :=
  if type = "hackage" then dashed
  else if type = "pypi" then smallDashed
  else if type = "pub" then smallPlain
  else if type ∈ ["bitbucket", "github", "gitlab", "composer", "luarocks", "oci", "npm", "alpm",
    "apk", "bitnami", "hex"] then small
  else asGiven

def write : Spelling → List Char → List Char
  | asGiven, s => s
  | small, s => lowercase s
  | dashed, s => s.map fun c ↦ if c = '_' then '-' else c
  | smallDashed, s => (lowercase s).map fun c ↦ if c = '_' then '-' else c
  | smallPlain, s => (lowercase s).map fun c ↦ if c.isLower || c.isDigit then c else '_'

end Spelling

variable {s : List Char} {c : Char}

theorem lt_of_isAlphanum (h : c.isAlphanum = true) : c.toNat < 0x80 := by
  have hlt {d : Char} (hd : d.toNat < 0x80) (hcd : c.val ≤ d.val) : c.toNat < 0x80 :=
    Nat.lt_of_le_of_lt (UInt32.le_iff_toNat_le.1 hcd) hd
  rcases Bool.or_eq_true_iff.1 h with h | h
  · rcases Bool.or_eq_true_iff.1 h with h | h
    · exact hlt (d := 'Z') (by decide) (of_decide_eq_true h).2
    · exact hlt (d := 'z') (by decide) (of_decide_eq_true (Bool.and_eq_true_iff.1 h).2)
  · exact hlt (d := '9') (by decide) (of_decide_eq_true (Bool.and_eq_true_iff.1 h).2)

theorem IsType.lt (h : IsType s) (hc : c ∈ s) : c.toNat < 0x80 := by
  rcases h.chars c hc with hc | rfl | rfl | rfl
  · exact lt_of_isAlphanum hc
  all_goals decide

theorem isBlank_of_isAlphanum (h : c.isAlphanum = true) : isBlank c = false :=
  forall_ascii (P := fun c ↦ c.isAlphanum = true → isBlank c = false) (by decide +kernel)
    (lt_of_isAlphanum h) h

theorem IsType.isBlank (h : IsType s) (hc : c ∈ s) : isBlank c = false := by
  rcases h.chars c hc with hc | rfl | rfl | rfl
  · exact isBlank_of_isAlphanum hc
  all_goals decide

theorem normalType_of_isType (h : IsType s) : normalType s = s.map Char.toLower := by
  rw [normalType, trim_of_forall fun _ ↦ h.isBlank, lowercase_of_ascii fun _ ↦ h.lt]

theorem isSchemeChar_iff :
    isSchemeChar c = true ↔ c.isAlphanum = true ∨ c = '+' ∨ c = '.' ∨ c = '-' := by
  simp only [isSchemeChar, Bool.or_eq_true, beq_iff_eq, or_assoc]

theorem isTypeStart_iff : isTypeStart c = true ↔ isSchemeChar c = true ∧ c.isDigit = false := by
  have hlt (h : isSchemeChar c = true) : c.toNat < 0x80 := by
    rcases isSchemeChar_iff.1 h with hc | rfl | rfl | rfl
    · exact lt_of_isAlphanum hc
    all_goals decide
  have hscheme (h : isTypeStart c = true) : isSchemeChar c = true := by
    simp only [isTypeStart, isSchemeChar, Char.isAlphanum, Bool.or_eq_true] at h ⊢
    grind
  have hiff (hc : c.toNat < 0x80) :
      isTypeStart c = true ↔ isSchemeChar c = true ∧ c.isDigit = false :=
    forall_ascii (P := fun c ↦ isTypeStart c = true ↔ isSchemeChar c = true ∧ c.isDigit = false)
      (by decide +kernel) hc
  exact ⟨fun h ↦ (hiff (hlt (hscheme h))).1 h, fun h ↦ (hiff (hlt h.1)).2 h⟩

theorem isEcosystem_iff (h : s.getLast? ≠ some '\n') : isEcosystem s = true ↔ IsType s := by
  have hlast : (s.getLast? == some '\n') = false := by simpa using h
  rw [isEcosystem, hlast]
  cases s with
  | nil => exact iff_of_false (by decide) fun h ↦ h.ne_nil rfl
  | cons c s =>
    simp only [Bool.false_eq_true, if_false, Bool.and_eq_true, List.all_eq_true, isTypeStart_iff,
      isSchemeChar_iff]
    constructor
    · rintro ⟨⟨hc, hdigit⟩, hs⟩
      exact ⟨List.cons_ne_nil c s, List.forall_mem_cons.2 ⟨hc, hs⟩, by simpa using hdigit⟩
    · intro h
      obtain ⟨hc, hs⟩ := List.forall_mem_cons.1 h.chars
      exact ⟨⟨hc, h.start c rfl⟩, hs⟩

theorem normalName_eq (type : String) (s : List Char) :
    normalName type s = (Spelling.of type).write (stripAll '/' (trim s)) := by
  by_cases hhackage : type = "hackage"
  · subst hhackage
    have hsmall : "hackage" ∉ lowercaseNameTypes := by decide
    simp [normalName, Spelling.of, Spelling.write, hsmall, dashed]
  by_cases hpypi : type = "pypi"
  · subst hpypi
    have hsmall : "pypi" ∈ lowercaseNameTypes := by decide
    simp [normalName, Spelling.of, Spelling.write, hsmall, dashed]
  by_cases hpub : type = "pub"
  · subst hpub
    have hsmall : "pub" ∈ lowercaseNameTypes := by decide
    simp [normalName, Spelling.of, Spelling.write, hsmall, isLowerAlphanumeric]
  have hsmall : lowercaseNameTypes.contains type = true ↔
      type ∈ ["bitbucket", "github", "gitlab", "composer", "luarocks", "oci", "npm", "alpm", "apk",
        "bitnami", "hex"] := by
    simp [lowercaseNameTypes, hpypi, hpub]
  simp only [normalName, Spelling.of, hsmall, hhackage, hpypi, hpub, beq_iff_eq, or_self, if_false,
    Bool.or_eq_true]
  split <;> rfl

theorem normalVersion_of_coordinate {type v : String} (h : isCoordinate v.toList = true) :
    versionOf (normalVersion type v.toList) =
      some (if type ∈ lowercaseVersionTypes then String.ofList (lowercase v.toList) else v) := by
  have hne := (isCoordinate_iff.1 h).1
  rw [normalVersion, trim_of_forall (isBlank_of_isCoordinate h), lowercaseVersion]
  simp only [List.contains_iff_mem]
  split
  · rw [versionOf, if_neg (by simpa [lowercase_eq_nil] using hne)]
  · rw [versionOf, if_neg (by simpa using hne), String.ofList_toList]

def EndsPlain (s : List Char) : Prop := s.head? ≠ some '/' ∧ s.getLast? ≠ some '/'

theorem ofParts?_eq_some {type name : String} {version : Option String} {url : PackageUrl}
    (h : ofParts? type name version = some url) :
    url = {
      type := String.ofList (normalType type.toList)
      scope := none
      name := String.ofList (normalName (String.ofList (normalType type.toList)) name.toList)
      version := version.bind fun v ↦ versionOf (normalVersion type v.toList) } := by
  rw [ofParts?] at h
  split at h
  · cases h
  · exact (Option.some.inj h).symm

section Checked

variable {ecosystem name : String} {version : Option String} {url : PackageUrl}
  (h : checked (some ecosystem) (some name) version = .ok url)

include h

theorem type_of_checked (hline : ecosystem.toList.getLast? ≠ some '\n') :
    IsType ecosystem.toList ∧ url.type.toList = ecosystem.toList.map Char.toLower := by
  obtain ⟨_, _, ⟨⟩, ⟨⟩, he, -, -, hurl, -⟩ := checked_eq_ok.1 h
  have htype := (isEcosystem_iff hline).1 he
  rw [ofParts?_eq_some hurl, String.toList_ofList, normalType_of_isType htype]
  exact ⟨htype, rfl⟩

theorem scope_of_checked : url.scope = none := by
  obtain ⟨_, _, ⟨⟩, ⟨⟩, -, -, -, hurl, -⟩ := checked_eq_ok.1 h
  rw [ofParts?_eq_some hurl]

theorem name_of_checked (hends : EndsPlain name.toList) :
    url.name.toList = (Spelling.of url.type).write name.toList := by
  obtain ⟨_, _, ⟨⟩, ⟨⟩, -, hn, -, hurl, -⟩ := checked_eq_ok.1 h
  rw [ofParts?_eq_some hurl, String.toList_ofList, normalName_eq,
    trim_of_forall (isBlank_of_isCoordinate hn), stripAll_of_ends hends.1 hends.2]

theorem version_of_checked :
    url.version = version.map fun v ↦
      if ecosystem ∈ lowercaseVersionTypes then String.ofList (lowercase v.toList) else v := by
  obtain ⟨_, _, ⟨⟩, ⟨⟩, -, -, hv, hurl, -⟩ := checked_eq_ok.1 h
  rw [ofParts?_eq_some hurl]
  cases version with
  | none => rfl
  | some v => exact normalVersion_of_coordinate (hv v rfl)

end Checked

/-- A package URL that passes the checks says what it has been asked to say, each part in the
spelling of its type. Slashes at the ends of a name are left aside here, and so is a line end behind
an ecosystem. -/
theorem checked_denotes {ecosystem name : String} {version : Option String} {url : PackageUrl}
    (h : checked (some ecosystem) (some name) version = .ok url) :
    (ecosystem.toList.getLast? ≠ some '\n' →
      IsType ecosystem.toList ∧ url.type.toList = ecosystem.toList.map Char.toLower) ∧
    url.scope = none ∧
    (EndsPlain name.toList → url.name.toList = (Spelling.of url.type).write name.toList) ∧
    (url.version = version.map fun v ↦
      if ecosystem ∈ lowercaseVersionTypes then String.ofList (lowercase v.toList) else v) ∧
    (Spelling.of url.type = .asGiven → ecosystem ∉ lowercaseVersionTypes →
      ∀ name' version', EndsPlain name.toList → EndsPlain name'.toList →
        checked (some ecosystem) (some name') version' = .ok url →
          name' = name ∧ version' = version) := by
  refine ⟨type_of_checked h, scope_of_checked h, name_of_checked h, version_of_checked h, ?_⟩
  intro hspelling hversion name' version' hends hends' h'
  constructor
  · have hname := name_of_checked h hends
    have hname' := name_of_checked h' hends'
    rw [hspelling] at hname hname'
    exact String.toList_inj.1 (hname'.symm.trans hname)
  · have hsame := (version_of_checked h').symm.trans (version_of_checked h)
    simpa only [if_neg hversion, Option.map_id'] using hsame

theorem dashes_kept :
    checked (some "Swift") (some "swift_Nio") (some "2.0-RC") =
        .ok ⟨"swift", none, "swift_Nio", some "2.0-RC"⟩ ∧
      IsType "Swift".toList ∧ Spelling.of "swift" = .asGiven ∧ EndsPlain "swift_Nio".toList := by
  have h : checked (some "Swift") (some "swift_Nio") (some "2.0-RC") =
      .ok ⟨"swift", none, "swift_Nio", some "2.0-RC"⟩ := by
    decide +kernel
  obtain ⟨htype, -⟩ := checked_denotes h
  exact ⟨h, (htype (by decide)).1, by decide, by decide, by decide⟩

/-- Two names of one type may have one package URL, and so may a name and that name with slashes at
its ends, or a version in small letters and in capitals; a line end passes as part of a type. -/
theorem respelled_and_cut :
    checked (some "github") (some "Foo") none = .ok ⟨"github", none, "foo", none⟩ ∧
      checked (some "github") (some "foo") none = .ok ⟨"github", none, "foo", none⟩ ∧
      checked (some "huggingface") (some "bert") (some "A1") =
        .ok ⟨"huggingface", none, "bert", some "a1"⟩ ∧
      checked (some "swift") (some "Gloss/") none = .ok ⟨"swift", none, "Gloss", none⟩ ∧
      checked (some "swift\n") (some "Gloss") none = .ok ⟨"swift", none, "Gloss", none⟩ ∧
      ¬ IsType "swift\n".toList := by
  refine ⟨by decide +kernel, by decide +kernel, by decide +kernel, by decide +kernel,
    by decide +kernel, fun h ↦ ?_⟩
  have hline := h.chars '\n' (by decide)
  revert hline
  decide

end SwiftInventory.PackageUrl
