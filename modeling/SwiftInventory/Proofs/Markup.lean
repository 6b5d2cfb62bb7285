import Mathlib.Algebra.Ring.Parity
import Mathlib.Data.List.DropRight
import Mathlib.Data.List.TakeWhile
import SwiftInventory.Report.Markup

namespace SwiftInventory.Markup

variable {s t : List Char} {c d : Char} {k n : Nat}

def OpensTag (rest : List Char) : Prop :=
  ∃ c inside after, rest = c :: (inside ++ ']' :: after) ∧ isTagStart c = true ∧ '[' ∉ inside

def slashesAtEnd (s : List Char) : Nat := (s.rtakeWhile (· == '\\')).length

/-- Every tag is kept from being one by an odd number of backslashes before it. -/
def IsLiteral (s : List Char) : Prop :=
  ∀ before rest, s = before ++ '[' :: rest → OpensTag rest → Odd (slashesAtEnd before)

theorem isLiteral_of_not_mem (h : '[' ∉ s) : IsLiteral s := by
  rintro before rest rfl
  simp at h

def isBracket (c : Char) : Bool := c == '[' || c == ']'

def nextBracket? (s : List Char) : Option Char := s.find? isBracket

def startsTag (s : List Char) : Bool := s.head?.any isTagStart

theorem not_isBracket_of_isTagStart (h : isTagStart c = true) : isBracket c = false := by
  rw [isBracket, Bool.or_eq_false_iff, beq_eq_false_iff_ne, beq_eq_false_iff_ne]
  constructor
  · rintro rfl
    exact absurd h (by decide)
  · rintro rfl
    exact absurd h (by decide)

theorem nextBracket?_cons (h : isBracket c = false) (s : List Char) :
    nextBracket? (c :: s) = nextBracket? s :=
  List.find?_cons_of_neg (by simp [h])

theorem nextBracket?_append (s t : List Char) :
    nextBracket? (s ++ t) = (nextBracket? s).or (nextBracket? t) := List.find?_append

theorem nextBracket?_eq_head? (s : List Char) :
    nextBracket? s = (s.drop (s.takeWhile fun c ↦ !isBracket c).length).head? := by
  induction s with
  | nil => rfl
  | cons c s ih =>
    by_cases hc : isBracket c = true
    · simp [nextBracket?, hc]
    · rw [Bool.not_eq_true] at hc
      rw [nextBracket?_cons hc, ih]
      simp [hc]

theorem nextBracket?_eq_close :
    nextBracket? s = some ']' ↔ ∃ inside after, s = inside ++ ']' :: after ∧ '[' ∉ inside := by
  constructor
  · intro h
    obtain ⟨-, inside, after, hs, hinside⟩ := List.find?_eq_some_iff_append.1 h
    refine ⟨inside, after, hs, fun hmem ↦ ?_⟩
    exact absurd (hinside _ hmem) (by decide)
  · rintro ⟨inside, after, rfl, hopen⟩
    induction inside with
    | nil => rfl
    | cons c inside ih =>
      have hne : c ≠ '[' := fun h ↦ hopen (by simp [h])
      by_cases hclose : c = ']'
      · rw [hclose]
        rfl
      · have hc : isBracket c = false := by simp [isBracket, hne, hclose]
        rw [List.cons_append, nextBracket?_cons hc]
        exact ih fun hmem ↦ hopen (List.mem_cons_of_mem c hmem)

theorem opensTag_iff : OpensTag s ↔ startsTag s = true ∧ nextBracket? s = some ']' := by
  constructor
  · rintro ⟨c, inside, after, rfl, hc, hopen⟩
    refine ⟨hc, ?_⟩
    rw [nextBracket?_cons (not_isBracket_of_isTagStart hc)]
    exact nextBracket?_eq_close.2 ⟨inside, after, rfl, hopen⟩
  · rintro ⟨hstart, hnext⟩
    cases s with
    | nil => cases hstart
    | cons c s =>
      have hc : isTagStart c = true := hstart
      rw [nextBracket?_cons (not_isBracket_of_isTagStart hc)] at hnext
      obtain ⟨inside, after, rfl, hopen⟩ := nextBracket?_eq_close.1 hnext
      exact ⟨c, inside, after, rfl, hc, hopen⟩

instance : Decidable (OpensTag s) := decidable_of_iff _ opensTag_iff.symm

theorem tagLength?_cons (h : isTagStart c = true) (s : List Char) :
    tagLength? (c :: s) = if nextBracket? s = some ']' then
      some ((s.takeWhile fun d ↦ !isBracket d).length + 2) else none := by
  have hp : (fun d ↦ d != '[' && d != ']') = fun d ↦ !isBracket d := by
    funext d
    simp only [isBracket, Bool.not_or]
    rfl
  simp only [tagLength?, h, if_true, hp, nextBracket?_eq_head?, beq_iff_eq]

theorem isSome_tagLength? : (tagLength? s).isSome = true ↔ OpensTag s := by
  rw [opensTag_iff]
  cases s with
  | nil => simp [tagLength?, startsTag]
  | cons c s =>
    by_cases hc : isTagStart c = true
    · rw [tagLength?_cons hc, nextBracket?_cons (not_isBracket_of_isTagStart hc)]
      by_cases hclose : nextBracket? s = some ']' <;> simp [hclose, startsTag, hc]
    · simp [tagLength?, startsTag, hc]

theorem eq_of_tagLength?_eq_some (h : tagLength? s = some n) :
    ∃ inside after, s = inside ++ ']' :: after ∧ (∀ d ∈ inside, isBracket d = false) ∧
      n = inside.length + 1 := by
  cases s with
  | nil => cases h
  | cons c s =>
    by_cases hc : isTagStart c = true
    · rw [tagLength?_cons hc] at h
      split at h
      · next hclose =>
        obtain ⟨-, inside, after, rfl, hinside⟩ := List.find?_eq_some_iff_append.1 hclose
        have htake : ((inside ++ ']' :: after).takeWhile fun d ↦ !isBracket d) = inside := by
          rw [List.takeWhile_append_of_pos hinside, List.takeWhile_cons_of_neg (by decide),
            List.append_nil]
        rw [htake] at h
        refine ⟨c :: inside, after, rfl, ?_, (Option.some.inj h).symm⟩
        intro d hd
        cases hd with
        | head => exact not_isBracket_of_isTagStart hc
        | tail _ hd => simpa using hinside d hd
      · cases h
    · rw [tagLength?, if_neg hc] at h
      cases h

/-- How many backslashes a text ends with, if `k` stand before it. -/
def slashesAfter (k : Nat) (s : List Char) : Nat :=
  s.foldl (fun k c ↦ if c = '\\' then k + 1 else 0) k

theorem slashesAfter_append (k : Nat) (s t : List Char) :
    slashesAfter k (s ++ t) = slashesAfter (slashesAfter k s) t := List.foldl_append

theorem slashesAfter_cons (h : c ≠ '\\') (k : Nat) (s : List Char) :
    slashesAfter k (c :: s) = slashesAfter 0 s := by
  rw [slashesAfter, List.foldl_cons, if_neg h]
  rfl

theorem slashesAfter_replicate (k n : Nat) : slashesAfter k (List.replicate n '\\') = k + n := by
  induction n generalizing k with
  | zero => rfl
  | succ n ih =>
    rw [List.replicate_succ, slashesAfter, List.foldl_cons, if_pos rfl]
    exact (ih (k + 1)).trans (by omega)

theorem slashesAtEnd_eq (s : List Char) : slashesAtEnd s = slashesAfter 0 s := by
  induction s using List.reverseRecOn with
  | nil => rfl
  | append_singleton s c ih =>
    rw [slashesAfter_append, ← ih, slashesAtEnd, List.rtakeWhile_concat, slashesAfter,
      List.foldl_cons, List.foldl_nil]
    by_cases h : c = '\\' <;> simp [h, slashesAtEnd]

/-- The opening brackets of a text, each with the number of backslashes before it and the text
behind it. -/
def openings (k : Nat) : List Char → List (Nat × List Char)
  | [] => []
  | c :: s => if c = '[' then (k, s) :: openings 0 s else openings (slashesAfter k [c]) s

theorem openings_cons (h : c ≠ '[') (k : Nat) (s : List Char) :
    openings k (c :: s) = openings (slashesAfter k [c]) s := if_neg h

theorem mem_openings : (n, t) ∈ openings k s ↔
    ∃ before, s = before ++ '[' :: t ∧ slashesAfter k before = n := by
  induction s generalizing k with
  | nil => simp [openings]
  | cons c s ih =>
    have hlater : (n, t) ∈ openings (slashesAfter k [c]) s ↔
        ∃ before, c :: s = (c :: before) ++ '[' :: t ∧ slashesAfter k (c :: before) = n := by
      simp only [ih, List.cons_append, List.cons.injEq, true_and]
      rfl
    constructor
    · intro h
      by_cases hc : c = '['
      · subst hc
        rw [openings, if_pos rfl, List.mem_cons, Prod.mk.injEq] at h
        rcases h with ⟨rfl, rfl⟩ | h
        · exact ⟨[], rfl, rfl⟩
        · obtain ⟨before, hs, hn⟩ := hlater.1 h
          exact ⟨_, hs, hn⟩
      · rw [openings_cons hc] at h
        obtain ⟨before, hs, hn⟩ := hlater.1 h
        exact ⟨_, hs, hn⟩
    · rintro ⟨before, hs, hn⟩
      cases before with
      | nil =>
        obtain ⟨rfl, rfl⟩ := List.cons.inj hs
        subst hn
        exact List.mem_cons_self
      | cons b before =>
        obtain ⟨rfl, hs'⟩ := List.cons.inj hs
        have hmem := hlater.2 ⟨before, hs, hn⟩
        by_cases hc : c = '['
        · subst hc
          exact List.mem_cons_of_mem _ hmem
        · rwa [openings_cons hc]

theorem openings_append (k : Nat) (s t : List Char) :
    openings k (s ++ t) =
      (openings k s).map (fun o ↦ (o.1, o.2 ++ t)) ++ openings (slashesAfter k s) t := by
  induction s generalizing k with
  | nil => rfl
  | cons c s ih =>
    by_cases hc : c = '['
    · subst hc
      rw [List.cons_append, openings, if_pos rfl, ih, openings, if_pos rfl]
      rfl
    · rw [List.cons_append, openings_cons hc, ih, openings_cons hc]
      rfl

end SwiftInventory.Markup
