import SwiftInventory.Proofs.Lock.Cutting
import SwiftInventory.Proofs.Lock.Layout
import SwiftInventory.Proofs.Lock.Values
import SwiftInventory.Proofs.PackageUrl.Denotation

namespace SwiftInventory.Lock

open Text

/-- What follows a version on its line: spaces and tabs, and at most one comma among them. -/
structure Tail where
  chars : Line
  of_blanks_and_comma : ∀ c ∈ chars, isIndent c = true ∨ c = ','
  one_comma : chars.count ',' ≤ 1

namespace Tail

variable (t : Tail)

/-- The blanks in front of the comma. Trimming starts from the end and goes no further than the
comma. -/
def kept : Line := if ',' ∈ t.chars then t.chars.takeWhile isIndent else []

/-- A blank stands between the version and the comma. -/
def IsLoose : Prop := ',' ∈ t.chars ∧ t.chars.head? ≠ some ','

instance : Decidable t.IsLoose := inferInstanceAs (Decidable (_ ∧ _))

/-- The quote that ends a version stays where blanks are kept behind it. -/
def leak : Line := if t.kept = [] then [] else '"' :: t.kept

theorem on_one_line : '\n' ∉ t.chars := by
  intro hmem
  rcases t.of_blanks_and_comma _ hmem with h | h
  · exact absurd h (by decide)
  · exact absurd h (by decide)

theorem kept_indent : ∀ c ∈ t.kept, isIndent c = true := by
  intro c hc
  rw [kept] at hc
  split at hc
  · exact List.mem_takeWhile_imp hc
  · cases hc

/-- A tail is blanks alone, or ends with a comma and blanks. -/
theorem parts :
    (t.kept = [] ∧ ∀ c ∈ t.chars, isIndent c = true) ∨
      ∃ after, (∀ c ∈ after, isIndent c = true) ∧ t.chars = t.kept ++ ',' :: after := by
  have hblank {c : Char} (hc : c ∈ t.chars) (hne : c ≠ ',') : isIndent c = true :=
    (t.of_blanks_and_comma c hc).resolve_right hne
  by_cases hcomma : ',' ∈ t.chars
  · obtain ⟨front, after, hchars, hfront⟩ := List.eq_append_cons_of_mem hcomma
    have hafter : ',' ∉ after := by
      have hcount := t.one_comma
      rw [hchars, List.count_append, List.count_cons_self] at hcount
      exact List.count_eq_zero.1 (by omega)
    have hindent : ∀ c ∈ front, isIndent c = true := fun c hc ↦
      hblank (by simp [hchars, hc]) fun h ↦ hfront (h ▸ hc)
    have hnot : ¬ isIndent ',' = true := by decide
    have hkept : t.kept = front := by
      rw [kept, if_pos hcomma, hchars, List.takeWhile_append_of_pos hindent,
        List.takeWhile_cons_of_neg hnot, List.append_nil]
    refine .inr ⟨after, fun c hc ↦ ?_, by rw [hkept, hchars]⟩
    exact hblank (by simp [hchars, hc]) fun h ↦ hafter (h ▸ hc)
  · exact .inl ⟨if_neg hcomma, fun c hc ↦ hblank hc fun h ↦ hcomma (h ▸ hc)⟩

theorem kept_eq_nil_iff : t.kept = [] ↔ ¬ t.IsLoose := by
  rcases t.parts with ⟨hkept, hblanks⟩ | ⟨after, -, hchars⟩
  · have hcomma : ',' ∉ t.chars := fun hmem ↦ absurd (hblanks _ hmem) (by decide)
    exact iff_of_true hkept fun h ↦ hcomma h.1
  · rw [IsLoose, hchars]
    cases hkept : t.kept with
    | nil => simp
    | cons c front =>
      have hc : c ≠ ',' := by
        rintro rfl
        exact absurd (t.kept_indent ',' (by simp [hkept])) (by decide)
      simp [hc]

theorem leak_eq_nil_iff : t.leak = [] ↔ ¬ t.IsLoose := by
  rw [← kept_eq_nil_iff, leak]
  split <;> simp_all

theorem kept_eq_leak_iff : t.kept = t.leak ↔ ¬ t.IsLoose := by
  constructor
  · intro h
    rw [← t.kept_eq_nil_iff]
    by_contra hkept
    rw [leak, if_neg hkept] at h
    exact List.cons_ne_self _ _ h.symm
  · intro h
    rw [t.kept_eq_nil_iff.2 h, t.leak_eq_nil_iff.2 h]

end Tail

variable {s v name value rest : List Char} {t : Tail}

def EndsFirm (s : List Char) : Prop := ∀ c ∈ s.getLast?, isIndent c = false ∧ c ≠ ','

theorem trimVersion_append (hs : EndsFirm s) : trimVersion (s ++ t.chars) = s ++ t.kept := by
  refine (trimmed_iff.1 ?_).symm
  rcases t.parts with ⟨hkept, hblanks⟩ | ⟨after, hafter, hchars⟩
  · have hcomma : ¬ [','] <:+ s := by
      rintro ⟨front, rfl⟩
      exact (hs ',' List.getLast?_concat).2 rfl
    exact ⟨s, t.chars, rfl, hblanks, fun c hc ↦ (hs c hc).1,
      .inr ⟨hcomma, by rw [hkept, List.append_nil]⟩⟩
  · have hlast : ∀ c ∈ (s ++ t.kept ++ [',']).getLast?, isIndent c = false := by
      rw [List.getLast?_concat]
      rintro c ⟨⟩
      rfl
    exact ⟨s ++ t.kept ++ [','], after, by simp [hchars], hafter, hlast, .inl rfl⟩

theorem withoutClosing_of_last (hlast : ∀ c ∈ s.getLast?, c ≠ '"' ∧ c ≠ '\n') :
    WithoutClosing s s := by
  refine .bare s ?_ ?_
  · rintro ⟨front, rfl⟩
    exact (hlast '"' List.getLast?_concat).1 rfl
  · rintro ⟨front, rfl⟩
    exact (hlast '\n' (by simp)).2 rfl

theorem last_kept (hkept : t.kept ≠ []) (s : List Char) :
    ∀ c ∈ (s ++ t.kept).getLast?, c ≠ '"' ∧ c ≠ '\n' := by
  intro c hc
  rw [List.getLast?_append_of_ne_nil _ hkept] at hc
  have hindent := t.kept_indent c (List.mem_of_mem_getLast? hc)
  constructor
  · rintro rfl
    exact absurd hindent (by decide)
  · rintro rfl
    exact absurd hindent (by decide)

theorem unquote_quoted : unquote (inQuotes v ++ t.kept) = v ++ t.leak := by
  by_cases hkept : t.kept = []
  · rw [Tail.leak, if_pos hkept, hkept, List.append_nil, List.append_nil, unquote_inQuotes]
  · have hclosing := withoutClosing_of_last (last_kept hkept (v ++ ['"']))
    have hread : v ++ ['"'] ++ t.kept = unquote (inQuotes v ++ t.kept) :=
      unquoted_iff.1 ⟨_, .quoted _, hclosing⟩
    rw [← hread, Tail.leak, if_neg hkept, List.append_assoc, List.singleton_append]

def bareNull : List Char := "null".toList

theorem unquote_null : unquote (bareNull ++ t.kept) = bareNull ++ t.kept := by
  have hopening : (bareNull ++ t.kept).head? ≠ some '"' :=
    fun h ↦ absurd (Option.some.inj h : 'n' = '"') (by decide)
  refine (unquoted_iff.1 ⟨_, .bare _ hopening, withoutClosing_of_last ?_⟩).symm
  by_cases hkept : t.kept = []
  · intro c hc
    rw [hkept, List.append_nil] at hc
    obtain rfl : 'l' = c := Option.some.inj hc
    decide
  · exact last_kept hkept bareNull

theorem ofValues_quoted :
    Pin.ofValues name (inQuotes v ++ t.chars) =
      ⟨String.ofList (unquote name), String.ofList (v ++ t.leak)⟩ := by
  have hfirm : EndsFirm (inQuotes v) := by
    intro c hc
    rw [inQuotes, List.getLast?_concat] at hc
    cases hc
    decide
  rw [Pin.ofValues, trimVersion_append hfirm, unquote_quoted]

theorem ofValues_null :
    Pin.ofValues name (bareNull ++ t.chars) =
      ⟨String.ofList (unquote name), String.ofList (bareNull ++ t.kept)⟩ := by
  have hfirm : EndsFirm bareNull := by
    intro c hc
    obtain rfl : 'l' = c := Option.some.inj hc
    decide
  rw [Pin.ofValues, trimVersion_append hfirm, unquote_null]

theorem IsValue.append_tail (h : IsValue value) (hne : value ≠ []) (t : Tail) :
    IsValue (value ++ t.chars) := by
  refine ⟨by simp [h.1, t.on_one_line], ?_⟩
  rw [List.head?_append_of_ne_nil _ hne]
  exact h.2

theorem isValue_null : IsValue bareNull := by
  refine ⟨by decide, fun c hc ↦ ?_⟩
  obtain rfl : 'n' = c := Option.some.inj hc
  rfl

theorem isValue_quoted (v : LineText) : IsValue (inQuotes v.chars) := by
  refine ⟨by simp [inQuotes, v.on_one_line], fun c hc ↦ ?_⟩
  obtain rfl : '"' = c := Option.some.inj hc
  rfl

theorem isValue_quoted_tail (v : LineText) (t : Tail) : IsValue (inQuotes v.chars ++ t.chars) :=
  (isValue_quoted v).append_tail (List.cons_ne_nil _ _) t

/-- Whatever version stands in quotes in the place of the one that a block has, it is read as it
stands, unless a blank stands between it and a comma: then its quote and the blanks are read with
it. -/
theorem quoted_version_read_iff {before start name value rest : List Char}
    (hbefore : WholeLines before) (h : BlockAt start name value rest) :
    ∃ front, start = front ++ (value ++ rest) ∧ ∀ (v : LineText) (t : Tail), ∃ pin : Pin,
      pins (before ++ (front ++ (inQuotes v.chars ++ t.chars ++ rest))) =
        pins before ++ pin :: pins (rest.drop 1) ∧
      pin.name = String.ofList (unquote name) ∧
      pin.version = String.ofList (v.chars ++ t.leak) ∧
      (pin.version = String.ofList v.chars ↔ ¬ t.IsLoose) := by
  obtain ⟨front, hstart, hread⟩ := pins_in_place hbefore h
  refine ⟨front, hstart, fun v t ↦ ⟨_, hread _ (isValue_quoted_tail v t), ?_⟩⟩
  rw [ofValues_quoted]
  refine ⟨rfl, rfl, ?_⟩
  rw [String.ofList_inj, List.append_right_eq_self, t.leak_eq_nil_iff]

def smallText (value : Line) : List Char :=
  "\"package\": \"A\",\n\"repositoryURL\": \"u\",\n".toList ++
    ("\"branch\": null,\n\"revision\": \"r\",\n".toList ++ (keyText "version" ++ ' ' :: value))

theorem blockAt_smallText (h : IsValue value) :
    BlockAt (smallText value) "\"A\"".toList value [] := by
  have hindent : ∀ c ∈ [' '], isIndent c = true := by simp [isIndent]
  have hversion : VersionField (keyText "version" ++ ' ' :: value) value [] :=
    ⟨[], [' '], by simp, hindent, h.1, h.2, .inl rfl, by simp⟩
  have hpackage : PackageField (smallText value) "\"A\"".toList _ :=
    ⟨[], [' '], by simp, hindent, by decide, by simp [isIndent], rfl⟩
  exact ⟨_, _, _, hpackage, ⟨[], " \"u\"".toList, by simp, by decide, rfl⟩, .inl rfl, _, _,
    ⟨[], " null".toList, by simp, by decide, rfl⟩, ⟨[], " \"r\"".toList, by simp, by decide, rfl⟩,
    hversion⟩

theorem comma_read_in_version : ∃ front, smallText bareNull = front ++ bareNull ∧
    ∃ pin : Pin, pins (front ++ "\"1,\",\t ".toList) = [pin] ∧ pin.version = "1," := by
  let t : Tail := ⟨",\t ".toList, by simp [isIndent], by decide⟩
  have h : BlockAt (smallText bareNull) "\"A\"".toList bareNull [] := blockAt_smallText isValue_null
  obtain ⟨front, hstart, hread⟩ := quoted_version_read_iff (.inl rfl) h
  obtain ⟨pin, hpins, -, -, hversion⟩ := hread ⟨"1,".toList, by decide⟩ t
  rw [List.append_nil] at hstart
  exact ⟨front, hstart, pin, hpins, hversion.2 (by decide)⟩

/-- Its closing quote is left in a version if a blank stands before the comma. -/
theorem quote_left_in_version :
    ¬ ∀ (s name rest : List Char) (v : LineText) (t : Tail),
      BlockAt s name (inQuotes v.chars ++ t.chars) rest →
        (pins s).head?.map (·.version) = some (String.ofList v.chars) := by
  intro hclaim
  let v : LineText := ⟨"1.0".toList, by decide⟩
  let t : Tail := ⟨" ,".toList, by simp [isIndent], by decide⟩
  have hpins : pins (smallText (inQuotes v.chars ++ t.chars)) = [⟨"A", "1.0\" "⟩] := by
    decide +kernel
  have hversion := hclaim _ _ _ v t (blockAt_smallText (isValue_quoted_tail v t))
  rw [hpins] at hversion
  exact absurd hversion (by decide)

end SwiftInventory.Lock
