import Mathlib.Data.List.TakeDrop
import SwiftInventory.Proofs.FirstPlace
import SwiftInventory.Proofs.Manifest.Declaration
import SwiftInventory.Proofs.Separation

namespace SwiftInventory.Manifest

open Text

variable {s before inside arguments : List Char}

theorem findDeclaration?_eq (before : Option Char) (s : List Char) :
    findDeclaration? before s =
      search (fun b t ↦ if b.any isWord then none else declarationAt? t) before s := by
  induction s generalizing before with
  | nil => cases before <;> simp [findDeclaration?, search, declarationAt?, List.isPrefixOf?]
  | cons c s ih =>
    rw [findDeclaration?, search, ← ih]
    cases declarationAt? (c :: s) with
    | none => simp
    | some inside => by_cases hb : before.any isWord = true <;> simp [hb]

theorem any_getLast?_eq_false : before.getLast?.any isWord = false ↔ AtWordEdge before := by
  rw [AtWordEdge]
  cases before.getLast? <;> simp

theorem declaresAt_iff {after : List Char} :
    (if before.getLast?.any isWord then none else declarationAt? after) ≠ none ↔
      DeclaresAt before after := by
  rw [Option.ne_none_iff_exists', DeclaresAt, ← any_getLast?_eq_false]
  simp only [Option.ite_none_left_eq_some, declarationAt?_eq_some, Bool.not_eq_true]
  constructor
  · rintro ⟨inside, hedge, d, h⟩
    exact ⟨hedge, d, inside, h⟩
  · rintro ⟨hedge, d, inside, h⟩
    exact ⟨inside, hedge, d, h⟩

theorem findDeclaration?_eq_some :
    findDeclaration? none s = some inside ↔
      ∃ before, ∃ d : Declaration, s = before ++ (d.text ++ inside) ∧
        IsFirst DeclaresAt before (d.text ++ inside) := by
  rw [findDeclaration?_eq, search_eq_some]
  constructor
  · rintro ⟨before, after, rfl, hf, hfirst⟩
    obtain ⟨d, rfl⟩ := declarationAt?_eq_some.1 (Option.ite_none_left_eq_some.1 hf).2
    exact ⟨before, d, rfl, hfirst.congr fun _ _ ↦ declaresAt_iff⟩
  · rintro ⟨before, d, rfl, hfirst⟩
    have hedge := any_getLast?_eq_false.2 hfirst.1.1
    refine ⟨before, d.text ++ inside, rfl, ?_, hfirst.congr fun _ _ ↦ declaresAt_iff.symm⟩
    exact Option.ite_none_left_eq_some.2 ⟨by simp [hedge], declarationAt?_eq_some.2 ⟨d, rfl⟩⟩

theorem findDeclaration?_eq_none :
    findDeclaration? none s = none ↔
      ∀ before after, s = before ++ after → ¬ DeclaresAt before after := by
  rw [findDeclaration?_eq, search_eq_none]
  simp only [← declaresAt_iff, not_not]

theorem description?_eq_none_of_findDeclaration? (h : findDeclaration? none s = some inside) :
    description? s = none ↔ ')' ∉ inside := by
  rw [description?, h]
  dsimp only
  split <;> rename_i hspan
  · exact iff_of_true rfl (not_mem_of_span_nil hspan)
  · obtain ⟨rfl, -⟩ := eq_of_span_cons hspan
    simp

theorem description?_of_findDeclaration? (h : findDeclaration? none s = some inside) :
    description? s = some arguments ↔ ∃ front rest,
      inside = front ++ ')' :: rest ∧ ')' ∉ front ∧ arguments = trimStart front := by
  rw [description?, h]
  dsimp only
  split <;> rename_i hspan
  · have hclosed := not_mem_of_span_nil hspan
    simp only [reduceCtorEq, false_iff, not_exists, not_and]
    rintro front rest rfl
    simp at hclosed
  · obtain ⟨he, hfront⟩ := eq_of_span_cons hspan
    rw [Option.some.injEq]
    constructor
    · rintro rfl
      exact ⟨_, _, he, hfront, rfl⟩
    · rintro ⟨front, rest, he', hfront', rfl⟩
      rw [(append_cons_inj hfront hfront' (he.symm.trans he')).1]

theorem description?_eq_some :
    description? s = some arguments ↔ ∃ before, ∃ d : Declaration, ∃ front rest,
      s = before ++ (d.text ++ (front ++ ')' :: rest)) ∧
        IsFirst DeclaresAt before (d.text ++ (front ++ ')' :: rest)) ∧ ')' ∉ front ∧
        arguments = trimStart front := by
  constructor
  · intro h
    cases hfind : findDeclaration? none s with
    | none => simp [description?, hfind] at h
    | some inside =>
      obtain ⟨front, rest, rfl, hfront, rfl⟩ := (description?_of_findDeclaration? hfind).1 h
      obtain ⟨before, d, rfl, hfirst⟩ := findDeclaration?_eq_some.1 hfind
      exact ⟨before, d, front, rest, rfl, hfirst, hfront, rfl⟩
  · rintro ⟨before, d, front, rest, rfl, hfirst, hfront, rfl⟩
    exact (description?_of_findDeclaration? (findDeclaration?_eq_some.2 ⟨before, d, rfl, hfirst⟩)).2
      ⟨front, rest, rfl, hfront, rfl⟩

/-- A declaration that is not closed hides no closed one, for what follows a later declaration also
follows the first one. -/
theorem description?_eq_none :
    description? s = none ↔ ∀ before, ∀ d : Declaration, ∀ inside,
      s = before ++ (d.text ++ inside) → AtWordEdge before → ')' ∉ inside := by
  constructor
  · rintro h before d inside rfl hedge hclosed
    cases hfind : findDeclaration? none (before ++ (d.text ++ inside)) with
    | none => exact findDeclaration?_eq_none.1 hfind _ _ rfl ⟨hedge, d, inside, rfl⟩
    | some first =>
      obtain ⟨before', d', he, hfirst⟩ := findDeclaration?_eq_some.1 hfind
      obtain ⟨u, rfl⟩ := hfirst.2 _ _ he ⟨hedge, d, inside, rfl⟩
      have hinside : u ++ (d.text ++ inside) = d'.text ++ first := by simpa using he
      have hmem : ')' ∈ d'.text ++ first := by simp [← hinside, hclosed]
      exact (description?_eq_none_of_findDeclaration? hfind).1 h
        ((List.mem_append.1 hmem).resolve_left d'.parenthesis_not_mem_text)
  · intro h
    by_contra hsome
    obtain ⟨arguments, hsome⟩ := Option.ne_none_iff_exists'.1 hsome
    obtain ⟨before, d, front, rest, rfl, hfirst, -, -⟩ := description?_eq_some.1 hsome
    exact h before d _ rfl hfirst.1.1 (by simp)

/-- There are no arguments exactly when no declaration of the text is ever closed; otherwise they
are those of the first one. At each place the pattern can be read in one way at most, which is the
way from left to right, and it is there that the tokens of a declaration stand. -/
theorem arguments_of_first_declaration (s : List Char) :
    (description? s = none ↔ ∀ before, ∀ d : Declaration, ∀ inside,
      s = before ++ (d.text ++ inside) → AtWordEdge before → ')' ∉ inside) ∧
    (∀ arguments, description? s = some arguments ↔
      ∃ before, ∃ d : Declaration, ∃ front rest,
        s = before ++ (d.text ++ (front ++ ')' :: rest)) ∧
          IsFirst DeclaresAt before (d.text ++ (front ++ ')' :: rest)) ∧ ')' ∉ front ∧
          arguments = trimStart front) ∧
    ∀ t, declarationPattern.rests t = (declarationAt? t).toList ∧
      ∀ inside, declarationAt? t = some inside ↔ ∃ d : Declaration, t = d.text ++ inside :=
  ⟨description?_eq_none, fun _ ↦ description?_eq_some,
    fun _ ↦ ⟨rests_declarationPattern, fun _ ↦ declarationAt?_eq_some⟩⟩

end SwiftInventory.Manifest
