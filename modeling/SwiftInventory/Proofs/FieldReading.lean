import SwiftInventory.Proofs.QuotedField

namespace SwiftInventory

open Text

namespace Field

variable {word s value : List Char} {value? other? : Option (List Char)}

/-- The text between the quotes of the first field with a word. It goes to the end where no quote
follows, and there is none where no such field begins. -/
inductive FirstValue (word s : List Char) : Option (List Char) → Prop
  | found (before : List Char) (o : Opening) (value rest : List Char)
      (parts : s = before ++ (o.text word ++ (value ++ rest)))
      (first : IsFirst (OpensAt word) before (o.text word ++ (value ++ rest)))
      (no_quote : '"' ∉ value) (ends : EndsValue rest) : FirstValue word s (some value)
  | absent (unopened : ∀ before after, s = before ++ after → ¬ OpensAt word before after) :
      FirstValue word s none

theorem find?_eq_none :
    find? word s = none ↔ ∀ before after, s = before ++ after → ¬ OpensAt word before after := by
  rw [find?_eq none, search_eq_none]
  simp only [← opensAt_iff, not_not]

theorem firstValue_iff :
    FirstValue word s value? ↔ value? = (find? word s).map (·.takeWhile (· != '"')) := by
  constructor
  · intro h
    cases h with
    | found before o value rest parts first no_quote ends =>
      rw [find?_eq_some.2 ⟨before, o, parts, first⟩, Option.map_some,
        takeWhile_quote no_quote ends]
    | absent unopened => rw [find?_eq_none.2 unopened, Option.map_none]
  · intro h
    cases hf : find? word s with
    | none =>
      rw [h, hf]
      exact .absent (find?_eq_none.1 hf)
    | some t =>
      obtain ⟨before, o, parts, first⟩ := find?_eq_some.1 hf
      obtain ⟨value, rest, ht, no_quote, ends⟩ := exists_value t
      rw [h, hf, Option.map_some, ht, takeWhile_quote no_quote ends]
      exact .found before o value rest (ht ▸ parts) (ht ▸ first) no_quote ends

theorem read_eq_trim (h : FirstValue word s value?) : read word s = trim (value?.getD []) := by
  rw [firstValue_iff.1 h, read]
  cases find? word s <;> rfl

theorem FirstValue.quote_not_mem (h : FirstValue word s value?) : '"' ∉ value?.getD [] := by
  cases h with
  | found before o value rest parts first no_quote ends => exact no_quote
  | absent unopened => exact List.not_mem_nil

def IsGivenOr (given? : Option String) (standIn text : String) : Prop :=
  if given? = none ∨ given? = some "" then text = standIn else given? = some text

theorem isGivenOr_getD (given? : Option String) (standIn : String) :
    IsGivenOr given? standIn ((nonEmpty? given?).getD standIn) := by
  cases given? with
  | none =>
    rw [IsGivenOr, if_pos (.inl rfl)]
    rfl
  | some text =>
    by_cases h : text = ""
    · rw [IsGivenOr, if_pos (.inr (congrArg some h)), h]
      rfl
    · rw [IsGivenOr, if_neg (by simp [h]), nonEmpty?, Option.filter_some_pos (by simp [h])]
      rfl

structure Note.Describes (note : Note) (r : Record) (word value : String) (e : Evidence) :
    Prop where
  kind : e.kind = note.kind
  source : IsGivenOr note.source r.fileName e.source
  name : IsGivenOr note.name word e.name
  value : e.value = value
  confidence : e.confidence = note.confidence

end Field

namespace Record

variable {r : Record} {word s : String} {note? : Option Field.Note}

theorem readField_value :
    (r.readField word s note?).1 = String.ofList (Field.read word.toList s.toList) := by
  cases note? with
  | none => rfl
  | some note =>
    dsimp only [readField]
    split <;> rfl

theorem readField_unnoted (h : note? = none ∨ (r.readField word s note?).1 = "") :
    (r.readField word s note?).2 = r := by
  cases note? with
  | none => rfl
  | some note =>
    have hvalue := h.resolve_left (Option.some_ne_none note)
    rw [readField_value] at hvalue
    dsimp only [readField]
    rw [hvalue]
    rfl

theorem readField_noted {note : Field.Note} (h : (r.readField word s (some note)).1 ≠ "") :
    ∃ e, note.Describes r word (r.readField word s (some note)).1 e ∧
      (r.readField word s (some note)).2 = r.addEvidence e := by
  rw [readField_value] at h ⊢
  have hne : (String.ofList (Field.read word.toList s.toList)).isEmpty = false := by
    simpa using h
  refine ⟨⟨note.kind, (nonEmpty? note.source).getD r.fileName, (nonEmpty? note.name).getD word,
    _, note.confidence⟩, ?_, by simp only [readField, hne]; rfl⟩
  exact ⟨rfl, Field.isGivenOr_getD _ _, Field.isGivenOr_getD _ _, rfl, rfl⟩

/-- Reading a field gives the trimmed text of the first field with that word, be it blank, and
nothing where there is none. The record is left alone but for one entry of evidence, which a text
that is not empty leaves if it is asked for. -/
theorem readField_first (r : Record) (word s : String) (note? : Option Field.Note) :
    ∃ value?, Field.FirstValue word.toList s.toList value? ∧
      (∀ other?, Field.FirstValue word.toList s.toList other? → other? = value?) ∧
      let value := (r.readField word s note?).1
      value = String.ofList (Field.read word.toList s.toList) ∧
      value.toList = trim (value?.getD []) ∧
      (value = "" ↔ value? = none ∨ ∃ text, value? = some text ∧ ∀ c ∈ text, isBlank c = true) ∧
      '"' ∉ value.toList ∧ IsTrimmed value.toList ∧
      (∀ note, note? = some note → value ≠ "" →
        ∃ e, note.Describes r word value e ∧ (r.readField word s note?).2 = r.addEvidence e) ∧
      (note? = none ∨ value = "" → (r.readField word s note?).2 = r) := by
  obtain ⟨value?, hfirst⟩ : ∃ value?, Field.FirstValue word.toList s.toList value? :=
    ⟨_, Field.firstValue_iff.2 rfl⟩
  have hvalue : (r.readField word s note?).1.toList = trim (value?.getD []) := by
    rw [readField_value, String.toList_ofList, Field.read_eq_trim hfirst]
  refine ⟨value?, hfirst, ?_, readField_value, hvalue, ?_, ?_, ?_, ?_, readField_unnoted⟩
  · intro other? hother
    rw [Field.firstValue_iff.1 hother, Field.firstValue_iff.1 hfirst]
  · rw [← String.toList_eq_nil_iff, hvalue, trim_eq_nil]
    cases value? <;> simp
  · rw [hvalue]
    exact fun h ↦ hfirst.quote_not_mem (mem_of_mem_trim h)
  · rw [hvalue]
    exact isTrimmed_trim _
  · intro note hnote hne
    subst hnote
    exact readField_noted hne

example :
    let r := ofFile (.ofString "Package.swift") false
    r.readField "name" "name: \" \", name: \"Gloss\"" (some ⟨.product, none, some "", .high⟩) =
      ("", r) := by
  decide

end Record

end SwiftInventory
