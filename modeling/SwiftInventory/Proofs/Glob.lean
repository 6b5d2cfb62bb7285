import Mathlib.Data.List.Basic
import SwiftInventory.Glob

namespace SwiftInventory.Glob

variable {token : Token} {ts : List Token} {c : Char} {s w : List Char} {bs : List Bool}

inductive Matches : List Token → List Char → Prop
  | nil : Matches [] []
  | run {ts : List Token} {s : List Char} (taken : List Char) (h : Matches ts s) :
      Matches (.run :: ts) (taken ++ s)
  | one {token : Token} {ts : List Token} {c : Char} {s : List Char}
      (hc : token.accepts c = true) (h : Matches ts s) : Matches (token :: ts) (c :: s)

theorem matches_run_nil : Matches (.run :: ts) [] ↔ Matches ts [] := by
  constructor
  · intro h
    generalize hs : ([] : List Char) = s at h
    cases h with
    | run taken h =>
      obtain ⟨rfl, rfl⟩ := List.append_eq_nil_iff.1 hs.symm
      exact h
    | one hc h => cases hs
  · exact .run []

theorem matches_run_cons :
    Matches (.run :: ts) (c :: s) ↔ Matches ts (c :: s) ∨ Matches (.run :: ts) s := by
  constructor
  · intro h
    generalize hs : c :: s = s' at h
    cases h with
    | run taken h =>
      cases taken with
      | nil =>
        rw [List.nil_append] at hs
        subst hs
        exact .inl h
      | cons d taken =>
        cases hs
        exact .inr (.run taken h)
    | one hc h => cases hc
  · rintro (h | h)
    · exact .run [] h
    · generalize ht : Token.run :: ts = ts' at h
      cases h with
      | nil => cases ht
      | run taken h =>
        cases ht
        exact .run (c :: taken) h
      | one hc h =>
        cases ht
        cases hc

theorem matches_cons (hrun : token ≠ .run) :
    Matches (token :: ts) (c :: s) ↔ token.accepts c = true ∧ Matches ts s := by
  constructor
  · intro h
    generalize hs : c :: s = s' at h
    cases h with
    | run => exact absurd rfl hrun
    | one hc h =>
      cases hs
      exact ⟨hc, h⟩
  · exact fun h ↦ .one h.1 h.2

theorem not_matches_nil (hrun : token ≠ .run) : ¬ Matches (token :: ts) [] := by
  intro h
  generalize hs : ([] : List Char) = s at h
  cases h with
  | run => exact hrun rfl
  | one => cases hs

/-- The answers for every end part of a text, longest first. -/
def Tells (ts : List Token) : List Char → List Bool → Prop
  | [], bs => ∃ b, bs = [b] ∧ (b = true ↔ Matches ts [])
  | c :: s, bs => ∃ b later, bs = b :: later ∧ (b = true ↔ Matches ts (c :: s)) ∧ Tells ts s later

theorem Tells.head (h : Tells ts s bs) : bs.headD false = true ↔ Matches ts s := by
  cases s with
  | nil =>
    obtain ⟨b, rfl, hb⟩ := h
    exact hb
  | cons c s =>
    obtain ⟨b, later, rfl, hb, -⟩ := h
    exact hb

theorem tells_nil (s : List Char) : Tells [] s (s.map (fun _ ↦ false) ++ [true]) := by
  induction s with
  | nil => exact ⟨true, rfl, by simp [Matches.nil]⟩
  | cons c s ih =>
    have hnot : ¬ Matches [] (c :: s) := fun h ↦ by cases h
    exact ⟨false, _, rfl, by simp [hnot], ih⟩

theorem Tells.extend_run (h : Tells ts s bs) : Tells (.run :: ts) s (Token.run.extend s bs) := by
  rw [Token.extend]
  induction s generalizing bs with
  | nil =>
    obtain ⟨b, rfl, hb⟩ := h
    exact ⟨_, rfl, by simp [hb, matches_run_nil]⟩
  | cons c s ih =>
    obtain ⟨b, later, rfl, hb, hlater⟩ := h
    have hrest := ih hlater
    refine ⟨_, _, rfl, ?_, hrest⟩
    rw [Bool.or_eq_true, hb, hrest.head, matches_run_cons]

theorem Tells.extend_one (hrun : token ≠ .run) (h : Tells ts s bs) :
    Tells (token :: ts) s
      (List.zipWith (fun c rest ↦ token.accepts c && rest) s bs.tail ++ [false]) := by
  induction s generalizing bs with
  | nil => exact ⟨false, rfl, by simp [not_matches_nil hrun]⟩
  | cons c s ih =>
    obtain ⟨b, later, rfl, -, hlater⟩ := h
    have hrest := ih hlater
    have hhead := hlater.head
    obtain ⟨b', later', rfl⟩ : ∃ b' later', later = b' :: later' := by
      cases s with
      | nil =>
        obtain ⟨b', hb', -⟩ := hlater
        exact ⟨b', [], hb'⟩
      | cons d s =>
        obtain ⟨b', later', hlater', -⟩ := hlater
        exact ⟨b', later', hlater'⟩
    refine ⟨token.accepts c && b', _, rfl, ?_, hrest⟩
    rw [Bool.and_eq_true, matches_cons hrun, ← hhead]
    rfl

theorem Tells.extend (token : Token) (h : Tells ts s bs) :
    Tells (token :: ts) s (token.extend s bs) := by
  by_cases hrun : token = .run
  · rw [hrun]
    exact h.extend_run
  · cases token with
    | run => exact absurd rfl hrun
    | one | exactly | among => exact h.extend_one hrun

theorem matchesTokens_iff : matchesTokens ts s = true ↔ Matches ts s := by
  -- The tokens are taken from the last to the first, each with the answers for those behind it.
  have h : Tells ts s (ts.foldr (Token.extend s) (s.map (fun _ ↦ false) ++ [true])) := by
    induction ts with
    | nil => exact tells_nil s
    | cons token ts ih => exact ih.extend token
  exact h.head

def isPlain (c : Char) : Bool := c != '*' && c != '?' && c != '['

theorem tokens_plain_append (h : w.all isPlain = true) (rest : List Char) :
    tokens (w ++ rest) = w.map .exactly ++ tokens rest := by
  induction w with
  | nil => rfl
  | cons c w ih =>
    rw [List.all_cons, Bool.and_eq_true] at h
    obtain ⟨⟨hrun, hone⟩, hset⟩ : (c ≠ '*' ∧ c ≠ '?') ∧ c ≠ '[' := by simpa [isPlain] using h.1
    have ih := ih h.2
    rw [tokens] at ih ⊢
    simpa [tokensFrom, hrun, hone, hset] using ih

theorem matches_exactly_append :
    Matches (w.map .exactly ++ ts) s ↔ ∃ rest, s = w ++ rest ∧ Matches ts rest := by
  induction w generalizing s with
  | nil => simp
  | cons c w ih =>
    have hrun : Token.exactly c ≠ .run := fun h ↦ by cases h
    rw [List.map_cons, List.cons_append]
    cases s with
    | nil =>
      refine iff_of_false (not_matches_nil hrun) ?_
      rintro ⟨rest, hs, -⟩
      cases hs
    | cons d s =>
      rw [matches_cons hrun, ih]
      constructor
      · rintro ⟨hc, rest, rfl, h⟩
        have hc : c = d := by simpa [Token.accepts] using hc
        exact ⟨rest, by rw [hc]; rfl, h⟩
      · rintro ⟨rest, hs, h⟩
        cases hs
        exact ⟨by simp [Token.accepts], rest, rfl, h⟩

theorem matches_run_iff : Matches (.run :: ts) s ↔ ∃ rest, rest <:+ s ∧ Matches ts rest := by
  induction s with
  | nil =>
    rw [matches_run_nil]
    constructor
    · exact fun h ↦ ⟨[], List.suffix_rfl, h⟩
    · rintro ⟨rest, hs, h⟩
      rwa [List.suffix_nil.1 hs] at h
  | cons c s ih =>
    rw [matches_run_cons, ih]
    constructor
    · rintro (h | ⟨rest, hs, h⟩)
      · exact ⟨c :: s, List.suffix_rfl, h⟩
      · exact ⟨rest, hs.trans (List.suffix_cons c s), h⟩
    · rintro ⟨rest, hs, h⟩
      rcases List.suffix_cons_iff.1 hs with rfl | hs
      · exact .inl h
      · exact .inr ⟨rest, hs, h⟩

theorem Matches.mem (h : Matches ts s) (hc : .exactly c ∈ ts) : c ∈ s := by
  induction h with
  | nil => cases hc
  | run taken h ih =>
    have hmem := ih (List.mem_of_ne_of_mem (fun he ↦ by cases he) hc)
    exact List.mem_append_right taken hmem
  | @one token ts d s hd h ih =>
    rcases List.mem_cons.1 hc with rfl | hc
    · have hd : c = d := by simpa [Token.accepts] using hd
      exact hd ▸ List.mem_cons_self
    · exact List.mem_cons_of_mem d (ih hc)

theorem tokens_run (pattern : List Char) : tokens ('*' :: pattern) = .run :: tokens pattern := rfl

theorem Token.ofBody_ne_run (body : List Char) : ofBody body ≠ .run := by
  rw [ofBody]
  split <;> exact fun h ↦ by cases h

theorem head_of_tokens_run {pattern : List Char} (h : tokens pattern = .run :: ts) :
    pattern.head? = some '*' := by
  cases pattern with
  | nil => cases h
  | cons c pattern =>
    rw [tokens, tokensFrom] at h
    split at h
    · rename_i hc
      rw [List.head?_cons, beq_iff_eq.1 hc]
    · split at h
      · cases h
      · split at h
        · split at h
          · exact absurd (List.cons.inj h).1 (Token.ofBody_ne_run _)
          · cases h
        · cases h

theorem globMatches_between_stars (h : w.all isPlain = true) :
    globMatches ('*' :: w ++ ['*']) s = true ↔ w <:+: s := by
  have htokens : tokens ('*' :: w ++ ['*']) = .run :: (w.map .exactly ++ [.run]) := by
    have hw : tokens (w ++ ['*']) = w.map .exactly ++ [.run] := tokens_plain_append h ['*']
    rw [← hw]
    rfl
  have hend : ∀ rest, Matches [.run] rest := fun rest ↦ by
    simpa using Matches.run rest Matches.nil
  rw [globMatches, matchesTokens_iff, htokens, matches_run_iff]
  constructor
  · rintro ⟨rest, ⟨before, rfl⟩, h⟩
    obtain ⟨after, rfl, -⟩ := matches_exactly_append.1 h
    exact ⟨before, after, List.append_assoc _ _ _⟩
  · rintro ⟨before, after, rfl⟩
    rw [List.append_assoc]
    exact ⟨w ++ after, List.suffix_append _ _, matches_exactly_append.2 ⟨after, rfl, hend after⟩⟩

end SwiftInventory.Glob
