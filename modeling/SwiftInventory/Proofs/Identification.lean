import Mathlib.Data.List.Basic
import SwiftInventory.Identifier
import SwiftInventory.Proofs.Trimming

namespace SwiftInventory

open Text

def IsSlashes (s : List Char) : Prop := s ≠ [] ∧ ∀ c ∈ s, c = '/'

instance (s : List Char) : Decidable (IsSlashes s) :=
  letI := List.decidableBAll (· = '/') s
  inferInstanceAs (Decidable (_ ∧ _))

namespace PackageUrl

variable {s : List Char}

theorem normalName_eq_nil (type : String) :
    normalName type s = [] ↔ stripAll '/' (trim s) = [] := by
  simp only [normalName]
  split <;> split <;> try split
  all_goals simp [dashed, lowercase_eq_nil]

theorem ofParts?_eq_none (type name : String) (version : Option String) :
    ofParts? type name version = none ↔ stripAll '/' (trim name.toList) = [] := by
  rw [← normalName_eq_nil (String.ofList (normalType type.toList)), ofParts?]
  split
  · simp_all
  · simp_all

theorem isCoordinate_iff :
    isCoordinate s = true ↔ s ≠ [] ∧ ∀ c ∈ s, isBlankOrControl c = false := by
  simp [isCoordinate]

theorem isBlank_of_isCoordinate (h : isCoordinate s = true) : ∀ c ∈ s, isBlank c = false := by
  intro c hc
  have hcontrol := (isCoordinate_iff.1 h).2 c hc
  simp only [isBlankOrControl, Bool.or_eq_false_iff] at hcontrol
  exact hcontrol.1.1

theorem isCoordinate_of_isSlashes (h : IsSlashes s) : isCoordinate s = true := by
  refine isCoordinate_iff.2 ⟨h.1, fun c hc ↦ ?_⟩
  rw [h.2 c hc]
  decide

theorem strip_eq_nil_iff (h : isCoordinate s = true) :
    stripAll '/' (trim s) = [] ↔ IsSlashes s := by
  rw [trim_of_forall (isBlank_of_isCoordinate h), stripAll_eq_nil, IsSlashes]
  exact (and_iff_right (isCoordinate_iff.1 h).1).symm

theorem filter_eq_none {version : Option String} :
    version.filter (fun v ↦ !isCoordinate v.toList) = none ↔
      ∀ v ∈ version, isCoordinate v.toList = true := by
  simp

/-- A name that passes the checks has no blanks, so only slashes can be stripped off it. -/
theorem checked_of_coordinates {ecosystem name : String} {version : Option String}
    (he : isEcosystem ecosystem.toList = true) (hn : isCoordinate name.toList = true)
    (hv : ∀ v ∈ version, isCoordinate v.toList = true) :
    checked (some ecosystem) (some name) version = .error .slashesOnly ↔
      IsSlashes name.toList := by
  simp only [checked, he, hn, filter_eq_none.2 hv, Bool.not_true, Bool.false_eq_true, if_false]
  rw [← strip_eq_nil_iff hn, ← ofParts?_eq_none ecosystem name version]
  cases ofParts? ecosystem name version with
  | none => simp
  | some u =>
    simp only [reduceCtorEq, iff_false]
    split
    · simp
    · split <;> simp

theorem checked_eq_slashesOnly {ecosystem name : String} {version : Option String} :
    checked (some ecosystem) (some name) version = .error .slashesOnly ↔
      isEcosystem ecosystem.toList = true ∧ IsSlashes name.toList ∧
        ∀ v ∈ version, isCoordinate v.toList = true := by
  constructor
  · intro h
    have he : isEcosystem ecosystem.toList = true := by
      by_contra he
      simp [checked, Bool.eq_false_iff.2 he] at h
    have hn : isCoordinate name.toList = true := by
      by_contra hn
      simp [checked, he, Bool.eq_false_iff.2 hn] at h
    have hv : ∀ v ∈ version, isCoordinate v.toList = true := by
      by_contra hv
      obtain ⟨v, hf⟩ := Option.ne_none_iff_exists'.1 (mt filter_eq_none.1 hv)
      simp [checked, he, hn, hf] at h
    exact ⟨he, (checked_of_coordinates he hn hv).1 h, hv⟩
  · rintro ⟨he, hs, hv⟩
    exact (checked_of_coordinates he (isCoordinate_of_isSlashes hs) hv).2 hs

/-- The one way through the checks: what they ask for holds, and the text has been read back. -/
theorem checked_eq_ok {ecosystem name version : Option String} {url : PackageUrl} :
    checked ecosystem name version = .ok url ↔
      ∃ e n, ecosystem = some e ∧ name = some n ∧ isEcosystem e.toList = true ∧
        isCoordinate n.toList = true ∧ (∀ v ∈ version, isCoordinate v.toList = true) ∧
        ofParts? e n version = some url ∧ parse url.text = .ok url := by
  constructor
  · intro h
    simp only [checked] at h
    repeat' split at h
    all_goals simp_all
  · rintro ⟨e, n, rfl, rfl, he, hn, hv, hurl, hread⟩
    simp [checked, he, hn, filter_eq_none.2 hv, hurl, hread]

end PackageUrl

theorem Identifier.ofCoordinates_eq_error {ecosystem name : String} {version : Option String}
    {confidence : Confidence} {fault : SlashesOnly} :
    ofCoordinates (some ecosystem) (some name) version confidence = .error fault ↔
      fault = ⟨name⟩ ∧ PackageUrl.isEcosystem ecosystem.toList = true ∧ IsSlashes name.toList ∧
        ∀ v ∈ version, PackageUrl.isCoordinate v.toList = true := by
  rw [← PackageUrl.checked_eq_slashesOnly, ofCoordinates]
  split <;> rename_i hc
  · simp [hc]
  · simp [hc, orNone, eq_comm]
  · simp_all

theorem Identifier.fallbackText_eq (ecosystem name : String) (version : Option String) :
    fallbackText (some ecosystem) (some name) version =
      ecosystem ++ ":" ++ name ++ version.elim "" ("@" ++ ·) := by
  cases version <;> simp [fallbackText, orNone, String.append_assoc]

/-- Coordinates have an identifier unless they are faultless but for a name of slashes only. It is
a package URL that reads back as itself, or else the plain text. -/
theorem Identifier.made_unless_slashes (ecosystem name : String) (version : Option String)
    (confidence : Confidence) :
    ((∃ i, ofCoordinates (some ecosystem) (some name) version confidence = .ok i) ↔
      ¬ (PackageUrl.isEcosystem ecosystem.toList = true ∧ IsSlashes name.toList ∧
        ∀ v ∈ version, PackageUrl.isCoordinate v.toList = true)) ∧
    ∀ i, ofCoordinates (some ecosystem) (some name) version confidence = .ok i →
      i.confidence = confidence ∧
      ((∃ url, i = packageUrl url confidence ∧
          PackageUrl.ofParts? ecosystem name version = some url ∧
          PackageUrl.parse url.text = .ok url) ∨
        i = generic (ecosystem ++ ":" ++ name ++ version.elim "" ("@" ++ ·)) confidence) := by
  constructor
  · rw [← PackageUrl.checked_eq_slashesOnly, ofCoordinates]
    split <;> simp_all
  · intro i h
    rw [ofCoordinates] at h
    split at h
    · rename_i url hchecked
      obtain rfl := Except.ok.inj h
      obtain ⟨_, _, ⟨⟩, ⟨⟩, -, -, -, hurl, hread⟩ := PackageUrl.checked_eq_ok.1 hchecked
      exact ⟨rfl, .inl ⟨url, rfl, hurl, hread⟩⟩
    · cases h
    · obtain rfl := Except.ok.inj h
      exact ⟨rfl, .inr (by rw [fallbackText_eq])⟩

theorem Identifier.slash_not_made :
    ¬ ∃ i, ofCoordinates (some "swift") (some "/") none .highest = .ok i := by
  rintro ⟨i, h⟩
  have hfault : ofCoordinates (some "swift") (some "/") none .highest = .error ⟨"/"⟩ := by
    decide +kernel
  rw [hfault] at h
  cases h

end SwiftInventory
