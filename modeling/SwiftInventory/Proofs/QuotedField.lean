import Mathlib.Data.List.TakeWhile
import SwiftInventory.Proofs.FirstPlace
import SwiftInventory.Proofs.Pattern
import SwiftInventory.Proofs.Separation
import SwiftInventory.Proofs.Trimming
import SwiftInventory.Record.Field

namespace SwiftInventory

namespace Field

open Text

structure Opening where
  beforeColon : Run isBlank
  afterColon : Run isBlank

def Opening.text (word : List Char) (o : Opening) : List Char :=
  word ++ (o.beforeColon.chars ++ (':' :: (o.afterColon.chars ++ ['"'])))

def OpensAt (word _before after : List Char) : Prop :=
  ∃ (o : Opening) (rest : List Char), after = o.text word ++ rest

section Pattern

open Pattern

def openingPattern (word : List Char) : Pattern :=
  sequence [literal word, run isBlank, literal [':'], run isBlank, literal ['"']]

variable {word s rest : List Char}

theorem matches_openingPattern :
    (openingPattern word).Matches s ↔ ∃ o : Opening, s = o.text word := by
  simp only [openingPattern, matches_literal_cons, matches_run_cons, matches_nil]
  constructor
  · rintro ⟨_, ⟨before, _, ⟨_, ⟨after, _, ⟨_, rfl, rfl⟩, rfl⟩, rfl⟩, rfl⟩, rfl⟩
    exact ⟨⟨before, after⟩, rfl⟩
  · rintro ⟨o, rfl⟩
    exact ⟨_, ⟨o.beforeColon, _, ⟨_, ⟨o.afterColon, _, ⟨_, rfl, rfl⟩, rfl⟩, rfl⟩, rfl⟩, rfl⟩

def quoteAt? (s : List Char) : Option (List Char) := do
  let s ← [':'].isPrefixOf? (trimStart s)
  ['"'].isPrefixOf? (trimStart s)

theorem isPrefixOf?_cons_self (c : Char) (s : List Char) : [c].isPrefixOf? (c :: s) = .some s := by
  simp [List.isPrefixOf?]

theorem isPrefixOf?_eq_none {c : Char} (h : ∀ t, s ≠ c :: t) : [c].isPrefixOf? s = none := by
  refine Option.eq_none_iff_forall_ne_some.2 fun t ht ↦ h t ?_
  exact (List.isPrefixOf?_eq_some_iff_append_eq.1 ht).symm

theorem valueAt?_eq : valueAt? word s = (word.isPrefixOf? s).bind quoteAt? := by
  rw [valueAt?]
  cases word.isPrefixOf? s with
  | none => rfl
  | some t =>
    rw [Option.map_some, Option.bind_some, quoteAt?]
    split <;> rename_i hcolon
    · rw [Option.some.inj hcolon, isPrefixOf?_cons_self, Option.bind_eq_bind, Option.bind_some]
      split <;> rename_i hquote
      · rw [hquote, isPrefixOf?_cons_self]
      · exact (isPrefixOf?_eq_none hquote).symm
    · rw [isPrefixOf?_eq_none fun u hu ↦ hcolon u (congrArg Option.some hu)]
      rfl

theorem rests_openingPattern : (openingPattern word).rests s = (valueAt? word s).toList := by
  rw [openingPattern, valueAt?_eq, rests_literal_cons, Option.toList_bind]
  refine congrArg (List.flatMap · _) (funext fun s ↦ ?_)
  rw [rests_run_literal_cons rfl, rests_literal_cons]
  refine (congrArg (List.flatMap · _) (funext fun s ↦ ?_)).trans Option.toList_bind.symm
  rw [rests_run_literal_cons rfl, rests_sequence_singleton]
  rfl

theorem valueAt?_eq_some :
    valueAt? word s = .some rest ↔ ∃ o : Opening, s = o.text word ++ rest := by
  rw [← Option.mem_toList, ← rests_openingPattern, mem_rests]
  simp only [matches_openingPattern]
  constructor
  · rintro ⟨_, ⟨o, rfl⟩, h⟩
    exact ⟨o, h⟩
  · rintro ⟨o, h⟩
    exact ⟨o.text word, ⟨o, rfl⟩, h⟩

end Pattern

variable {word s before value rest : List Char}

theorem find?_eq (b : Option Char) : find? word s = search (fun _ t ↦ valueAt? word t) b s := by
  induction s generalizing b with
  | nil => rfl
  | cons c s ih =>
    rw [find?, search, ← ih]
    cases valueAt? word (c :: s) <;> rfl

theorem opensAt_iff {after : List Char} :
    valueAt? word after ≠ none ↔ OpensAt word before after := by
  rw [Option.ne_none_iff_exists', OpensAt]
  simp only [valueAt?_eq_some]
  exact exists_comm

theorem find?_eq_some :
    find? word s = some rest ↔ ∃ before, ∃ o : Opening, s = before ++ (o.text word ++ rest) ∧
      IsFirst (OpensAt word) before (o.text word ++ rest) := by
  rw [find?_eq none, search_eq_some]
  constructor
  · rintro ⟨before, after, rfl, hf, hfirst⟩
    obtain ⟨o, rfl⟩ := valueAt?_eq_some.1 hf
    exact ⟨before, o, rfl, hfirst.congr fun _ _ ↦ opensAt_iff⟩
  · rintro ⟨before, o, rfl, hfirst⟩
    exact ⟨before, _, rfl, valueAt?_eq_some.2 ⟨o, rfl⟩, hfirst.congr fun _ _ ↦ opensAt_iff.symm⟩

/-- The value ends at a quote, or else with the text. -/
def EndsValue (rest : List Char) : Prop := rest = [] ∨ ∃ after, rest = '"' :: after

theorem takeWhile_quote (hv : '"' ∉ value) (hr : EndsValue rest) :
    (value ++ rest).takeWhile (· != '"') = value := by
  have hvalue : ∀ c ∈ value, (c != '"') = true := by
    intro c hc
    simpa using fun h : c = '"' ↦ hv (h ▸ hc)
  rw [List.takeWhile_append_of_pos hvalue]
  rcases hr with rfl | ⟨after, rfl⟩ <;> simp

theorem exists_value (s : List Char) :
    ∃ value rest, s = value ++ rest ∧ '"' ∉ value ∧ EndsValue rest :=
  ⟨s.takeWhile (· != '"'), s.dropWhile (· != '"'), List.takeWhile_append_dropWhile.symm,
    not_mem_takeWhile_ne, dropWhile_ne_cases '"' s⟩

theorem read_of_first {o : Opening}
    (h : IsFirst (OpensAt word) before (o.text word ++ (value ++ rest))) (hv : '"' ∉ value)
    (hr : EndsValue rest) :
    read word (before ++ (o.text word ++ (value ++ rest))) = trim value := by
  rw [read, find?_eq_some.2 ⟨before, o, rfl, h⟩]
  dsimp only
  rw [takeWhile_quote hv hr]

theorem exists_first_of_read_ne_nil (h : read word s ≠ []) :
    ∃ before, ∃ o : Opening, ∃ value rest, s = before ++ (o.text word ++ (value ++ rest)) ∧
      IsFirst (OpensAt word) before (o.text word ++ (value ++ rest)) ∧ '"' ∉ value ∧
      EndsValue rest ∧ read word s = trim value := by
  cases hf : find? word s with
  | none => simp [read, hf] at h
  | some t =>
    obtain ⟨before, o, rfl, hfirst⟩ := find?_eq_some.1 hf
    obtain ⟨value, rest, rfl, hv, hr⟩ := exists_value t
    exact ⟨before, o, value, rest, rfl, hfirst, hv, hr, read_of_first hfirst hv hr⟩

end Field

end SwiftInventory
