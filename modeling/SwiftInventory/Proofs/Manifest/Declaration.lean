import Mathlib.Data.List.Basic
import SwiftInventory.Manifest.Declaration
import SwiftInventory.Proofs.Pattern
import SwiftInventory.Proofs.Trimming

namespace SwiftInventory

namespace Text

theorem isWord_of_isBlank {c : Char} (h : isBlank c = true) : isWord c = false := by
  have htable : ∀ n ∈ blankCodes, isWord (Char.ofNat n) = false := by decide +kernel
  simpa using htable _ (toNat_mem_blankCodes h)

end Text

namespace Manifest

open Text

/-- A type after the name, with its colon and the blanks around that. -/
structure TypeName where
  beforeColon : Run isBlank
  afterColon : Run isBlank
  type : Run isTypeNameChar
  type_ne_nil : type.chars ≠ []

/-- The tokens of a declaration that can be chosen freely, and the blanks between all of them. -/
structure Declaration where
  afterLet : Run isBlank
  afterLet_ne_nil : afterLet.chars ≠ []
  name : Run isWord
  name_ne_nil : name.chars ≠ []
  typeName : Option TypeName
  beforeEquals : Run isBlank
  afterEquals : Run isBlank
  afterPackage : Run isBlank

def TypeName.text (t : TypeName) : List Char :=
  t.beforeColon.chars ++ (':' :: (t.afterColon.chars ++ t.type.chars))

namespace Declaration

variable (d : Declaration)

def typeText : List Char := (d.typeName.map TypeName.text).getD []

def callText : List Char :=
  d.beforeEquals.chars ++
    ('=' :: (d.afterEquals.chars ++ ("Package".toList ++ (d.afterPackage.chars ++ ['(']))))

def text : List Char :=
  "let".toList ++ (d.afterLet.chars ++ (d.name.chars ++ (d.typeText ++ d.callText)))

end Declaration

def AtWordEdge (before : List Char) : Prop := ∀ c ∈ before.getLast?, isWord c = false

instance (before : List Char) : Decidable (AtWordEdge before) :=
  before.getLast?.decidableForallMem

/-- A declaration begins between two parts of a text. -/
def DeclaresAt (before after : List Char) : Prop :=
  AtWordEdge before ∧ ∃ (d : Declaration) (inside : List Char), after = d.text ++ inside

section Pattern

open Pattern

def typePattern : List Pattern := [run isBlank, literal [':'], run isBlank, some isTypeNameChar]

def callPattern : List Pattern :=
  [run isBlank, literal ['='], run isBlank, literal "Package".toList, run isBlank, literal ['(']]

def declarationPattern : Pattern :=
  sequence (literal "let".toList :: some isBlank :: some isWord ::
    optional (sequence typePattern) :: callPattern)

variable {s rest : List Char} {c : Char}

def callAt? (s : List Char) : Option (List Char) := do
  let s ← ['='].isPrefixOf? s
  let s ← "Package".toList.isPrefixOf? (trimStart s)
  ['('].isPrefixOf? (trimStart s)

theorem declarationAt?_eq :
    declarationAt? s =
      ("let".toList.isPrefixOf? s).bind fun s ↦ (afterRun? isBlank s).bind fun s ↦
        (afterRun? isWord s).bind fun s ↦ (afterTypeName? (trimStart s)).bind callAt? := rfl

theorem rests_some_cons_eq_afterRun? {p : Char → Bool} {parts : List Pattern}
    (h : ∀ c s, p c = true → (sequence parts).rests (c :: s) = []) :
    (sequence (some p :: parts)).rests s =
      (afterRun? p s).toList.flatMap (sequence parts).rests := by
  cases s with
  | nil => rfl
  | cons c s =>
    rw [rests_some_cons h, afterRun?]
    split <;> simp

theorem rests_callPattern :
    (sequence callPattern).rests s = (callAt? (trimStart s)).toList := by
  have hpackage : "Package".toList = 'P' :: "ackage".toList := rfl
  rw [callPattern, rests_run_literal_cons rfl, rests_literal_cons, callAt?]
  refine (congrArg (List.flatMap · _) (funext fun s ↦ ?_)).trans Option.toList_bind.symm
  rw [hpackage, rests_run_literal_cons rfl, rests_literal_cons]
  refine (congrArg (List.flatMap · _) (funext fun s ↦ ?_)).trans Option.toList_bind.symm
  rw [rests_run_literal_cons rfl, rests_sequence_singleton]
  rfl

theorem callAt?_cons_of_ne (h : c ≠ '=') : callAt? (c :: s) = none := by
  rw [callAt?, isPrefixOf?_cons_of_ne h.symm]
  rfl

theorem isTypeNameChar_of_isWord (h : isWord c = true) : isTypeNameChar c = true := by
  rw [isTypeNameChar, h, Bool.true_or]

theorem isBlank_of_isTypeNameChar (h : isTypeNameChar c = true) : isBlank c = false := by
  rcases Bool.or_eq_true_iff.1 h with h | h
  · by_contra hb
    rw [isWord_of_isBlank (by simpa using hb)] at h
    cases h
  · rw [beq_iff_eq.1 h]
    rfl

theorem isTypeNameChar_of_isBlank (h : isBlank c = true) : isTypeNameChar c = false := by
  by_contra htype
  rw [isBlank_of_isTypeNameChar (by simpa using htype)] at h
  cases h

theorem rests_callPattern_of_isTypeNameChar (h : isTypeNameChar c = true) :
    (sequence callPattern).rests (c :: s) = [] := by
  have hblank : ¬ isBlank c = true := by simp [isBlank_of_isTypeNameChar h]
  have hequals : c ≠ '=' := by
    rintro rfl
    exact absurd h (by decide)
  rw [rests_callPattern, trimStart, List.dropWhile_cons_of_neg hblank, callAt?_cons_of_ne hequals]
  rfl

theorem rests_typePattern :
    (sequence (typePattern ++ callPattern)).rests s =
      ([':'].isPrefixOf? (trimStart s)).toList.flatMap fun s ↦
        (afterRun? isTypeNameChar (trimStart s)).toList.flatMap (sequence callPattern).rests := by
  have hafter : ∀ c s, isTypeNameChar c = true → (sequence callPattern).rests (c :: s) = [] :=
    fun c s h ↦ rests_callPattern_of_isTypeNameChar h
  rw [typePattern, List.cons_append, List.cons_append, rests_run_literal_cons rfl,
    rests_literal_cons]
  refine congrArg (List.flatMap · _) (funext fun s ↦ ?_)
  have hblank : ∀ c s, isBlank c = true →
      (sequence (some isTypeNameChar :: callPattern)).rests (c :: s) = [] := by
    intro c s hc
    rw [rests_some_cons hafter, if_neg]
    intro htype
    rw [isBlank_of_isTypeNameChar htype] at hc
    cases hc
  exact (rests_run_cons hblank).trans (rests_some_cons_eq_afterRun? hafter)

theorem afterTypeName?_of_ne (h : c ≠ ':') : afterTypeName? (c :: s) = .some (c :: s) := by
  rw [afterTypeName?]
  rintro _ ⟨⟩
  exact h rfl

theorem rests_optional_typePattern :
    (sequence (optional (sequence typePattern) :: callPattern)).rests s =
      ((afterTypeName? (trimStart s)).bind callAt?).toList := by
  rw [rests_sequence_cons, rests, List.flatMap_append, ← rests_sequence_append, rests_typePattern,
    List.flatMap_singleton, rests_callPattern]
  -- The character after the name decides: a type begins with a colon, and a call with no colon.
  cases trimStart s with
  | nil => rfl
  | cons c t =>
    by_cases hc : c = ':'
    · have hprefix : [':'].isPrefixOf? (':' :: t) = .some t := by simp [List.isPrefixOf?]
      rw [hc, callAt?_cons_of_ne (by decide), hprefix, afterTypeName?]
      cases hrun : afterRun? isTypeNameChar (trimStart t) with
      | none => simp [hrun]
      | some rest => simp [hrun, rests_callPattern]
    · rw [isPrefixOf?_cons_of_ne (Ne.symm hc), afterTypeName?_of_ne hc]
      rfl

theorem rests_optional_typePattern_of_isWord (h : isWord c = true) :
    (sequence (optional (sequence typePattern) :: callPattern)).rests (c :: s) = [] := by
  have hblank : ¬ isBlank c = true := fun hb ↦ by simp [isWord_of_isBlank hb] at h
  have hcolon : c ≠ ':' := by
    rintro rfl
    exact absurd h (by decide)
  have hequals : c ≠ '=' := by
    rintro rfl
    exact absurd h (by decide)
  rw [rests_optional_typePattern, trimStart, List.dropWhile_cons_of_neg hblank,
    afterTypeName?_of_ne hcolon, Option.bind_some, callAt?_cons_of_ne hequals]
  rfl

/-- Backtracking finds one way to read a declaration at most, and it is the one that is found by
never going back. -/
theorem rests_declarationPattern : declarationPattern.rests s = (declarationAt? s).toList := by
  have hname : ∀ c s, isWord c = true →
      (sequence (optional (sequence typePattern) :: callPattern)).rests (c :: s) = [] :=
    fun c s h ↦ rests_optional_typePattern_of_isWord h
  have hlet : ∀ c s, isBlank c = true →
      (sequence (some isWord :: optional (sequence typePattern) :: callPattern)).rests (c :: s) =
        [] := by
    intro c s hc
    rw [rests_some_cons hname, if_neg (by simp [isWord_of_isBlank hc])]
  rw [declarationPattern, rests_literal_cons, declarationAt?_eq, Option.toList_bind]
  refine congrArg (List.flatMap · _) (funext fun s ↦ ?_)
  rw [rests_some_cons_eq_afterRun? hlet, Function.comp_apply, Option.toList_bind]
  refine congrArg (List.flatMap · _) (funext fun s ↦ ?_)
  rw [rests_some_cons_eq_afterRun? hname, Function.comp_apply, Option.toList_bind]
  exact congrArg (List.flatMap · _) (funext fun s ↦ rests_optional_typePattern)

theorem matches_typePattern : (sequence typePattern).Matches s ↔ ∃ t : TypeName, s = t.text := by
  simp only [typePattern, matches_run_cons, matches_literal_cons, matches_some_cons, matches_nil]
  constructor
  · rintro ⟨before, _, ⟨_, ⟨after, _, ⟨type, _, hne, rfl, rfl⟩, rfl⟩, rfl⟩, rfl⟩
    exact ⟨⟨before, after, type, hne⟩, by simp [TypeName.text]⟩
  · rintro ⟨t, rfl⟩
    exact ⟨t.beforeColon, _, ⟨_, ⟨t.afterColon, _, ⟨t.type, _, t.type_ne_nil, rfl, rfl⟩, rfl⟩, rfl⟩,
      by simp [TypeName.text]⟩

theorem matches_callPattern :
    (sequence callPattern).Matches s ↔ ∃ beforeEquals afterEquals afterPackage : Run isBlank,
      s = beforeEquals.chars ++ ('=' ::
        (afterEquals.chars ++ ("Package".toList ++ (afterPackage.chars ++ ['('])))) := by
  simp only [callPattern, matches_run_cons, matches_literal_cons, matches_nil]
  constructor
  · rintro ⟨before, _, ⟨_, ⟨after, _, ⟨_, ⟨last, _, ⟨_, rfl, rfl⟩, rfl⟩, rfl⟩, rfl⟩, rfl⟩, rfl⟩
    exact ⟨before, after, last, rfl⟩
  · rintro ⟨before, after, last, rfl⟩
    exact ⟨before, _, ⟨_, ⟨after, _, ⟨_, ⟨last, _, ⟨_, rfl, rfl⟩, rfl⟩, rfl⟩, rfl⟩, rfl⟩, rfl⟩

theorem matches_optional_typePattern :
    (optional (sequence typePattern)).Matches s ↔
      ∃ typeName : Option TypeName, s = (typeName.map TypeName.text).getD [] := by
  rw [Matches, matches_typePattern, Option.exists]
  rfl

theorem matches_declarationPattern :
    declarationPattern.Matches s ↔ ∃ d : Declaration, s = d.text := by
  simp only [declarationPattern, matches_literal_cons, matches_some_cons,
    matches_sequence_cons (a := optional _), matches_optional_typePattern, matches_callPattern]
  constructor
  · rintro ⟨_, ⟨afterLet, _, hlet, ⟨name, _, hname, ⟨_, _, ⟨typeName, rfl⟩, ⟨beforeEquals,
      afterEquals, afterPackage, rfl⟩, rfl⟩, rfl⟩, rfl⟩, rfl⟩
    exact ⟨⟨afterLet, hlet, name, hname, typeName, beforeEquals, afterEquals, afterPackage⟩, rfl⟩
  · rintro ⟨d, rfl⟩
    exact ⟨_, ⟨d.afterLet, _, d.afterLet_ne_nil, ⟨d.name, _, d.name_ne_nil, ⟨_, _, ⟨d.typeName,
      rfl⟩, ⟨d.beforeEquals, d.afterEquals, d.afterPackage, rfl⟩, rfl⟩, rfl⟩, rfl⟩, rfl⟩

theorem declarationAt?_eq_some :
    declarationAt? s = .some rest ↔ ∃ d : Declaration, s = d.text ++ rest := by
  rw [← Option.mem_toList, ← rests_declarationPattern, mem_rests]
  simp only [matches_declarationPattern]
  constructor
  · rintro ⟨_, ⟨d, rfl⟩, h⟩
    exact ⟨d, h⟩
  · rintro ⟨d, h⟩
    exact ⟨d.text, ⟨d, rfl⟩, h⟩

end Pattern

theorem isWord_of_mem_keyword : ∀ c ∈ "let".toList, isWord c = true := List.all_eq_true.1 rfl

theorem not_mem_of_run {p : Char → Bool} {c : Char} (hc : p c = false) (r : Run p) :
    c ∉ r.chars := fun h ↦ by simp [r.all c h] at hc

theorem Declaration.parenthesis_not_mem_text (d : Declaration) : ')' ∉ d.text := by
  have hblank (r : Run isBlank) : ')' ∉ r.chars := not_mem_of_run (by decide) r
  have hword : ')' ∉ d.name.chars := not_mem_of_run (by decide) d.name
  have htype (t : TypeName) : ')' ∉ t.type.chars := not_mem_of_run (by decide) t.type
  cases h : d.typeName <;>
    simp [text, typeText, callText, TypeName.text, h, hblank, hword, htype]

end Manifest

end SwiftInventory
