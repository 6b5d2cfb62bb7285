import SwiftInventory.Proofs.Discovery.Ignoring

namespace SwiftInventory

namespace Glob

variable {pattern s : List Char}

/-- The first token takes a slash, and the tokens after it match the text. -/
def TakesSlash (pattern s : List Char) : Prop :=
  ∃ token ts, tokens pattern = token :: ts ∧ token.accepts '/' = true ∧ Matches ts s

/-- The pattern asks for another character than a slash first, and for a slash later on. -/
def IsAnchored (pattern : List Char) : Prop :=
  ∃ token ts, tokens pattern = token :: ts ∧ token ≠ .run ∧ token.accepts '/' = false ∧
    .exactly '/' ∈ ts

theorem isAnchored_of_folder {folder rest : List Char} (hne : folder ≠ [])
    (hplain : folder.all isPlain = true) (hslash : '/' ∉ folder) :
    IsAnchored (folder ++ '/' :: rest) := by
  obtain ⟨c, folder, rfl⟩ := List.exists_cons_of_ne_nil hne
  have hc : ('/' : Char) ≠ c := fun h ↦ hslash (h ▸ List.mem_cons_self)
  have htokens : tokens (c :: folder ++ '/' :: rest) =
      .exactly c :: (folder.map .exactly ++ .exactly '/' :: tokens rest) :=
    tokens_plain_append hplain ('/' :: rest)
  refine ⟨_, _, htokens, (fun h ↦ by cases h), ?_, by simp⟩
  simpa [Token.accepts] using hc.symm

theorem globMatches_slash_iff (h : globMatches pattern s = true) :
    globMatches pattern ('/' :: s) = true ↔ pattern.head? = some '*' ∨ TakesSlash pattern s := by
  rw [globMatches, matchesTokens_iff] at h ⊢
  constructor
  · intro hslash
    cases hts : tokens pattern with
    | nil =>
      rw [hts] at hslash
      cases hslash
    | cons token ts =>
      rw [hts] at hslash
      by_cases hrun : token = .run
      · rw [hrun] at hts
        exact .inl (head_of_tokens_run hts)
      · obtain ⟨haccepts, hrest⟩ := (matches_cons hrun).1 hslash
        exact .inr ⟨token, ts, hts, haccepts, hrest⟩
  · rintro (hstar | ⟨token, ts, hts, haccepts, hrest⟩)
    · obtain ⟨rest, rfl⟩ := List.head?_eq_some_iff.1 hstar
      rw [tokens_run] at h ⊢
      exact matches_run_cons.2 (.inr h)
    · rw [hts]
      exact .one haccepts hrest

theorem globMatches_slash_cons :
    globMatches ('/' :: pattern) ('/' :: s) = globMatches pattern s := by
  have htokens : tokens ('/' :: pattern) = .exactly '/' :: tokens pattern :=
    tokens_plain_append (w := ['/']) (by decide) pattern
  rw [Bool.eq_iff_iff, globMatches, globMatches, matchesTokens_iff, matchesTokens_iff, htokens,
    matches_cons fun h ↦ by cases h]
  exact and_iff_right rfl

end Glob

namespace Path

variable {p : Path} {g : String}

theorem isIgnored_singleton :
    p.isIgnored [g] = true ↔ p.isIgnored [] = true ∨
      globMatches g.toList ('/' :: p.toString.toList) = true ∨
        globMatches g.toList p.name.toList = true := by
  simp only [isIgnored, List.any_append, List.append_nil, List.any_cons, List.any_nil,
    Bool.or_false, Bool.or_eq_true]

theorem not_globMatches_name_of_mem {pattern : List Char} (h : .exactly '/' ∈ Glob.tokens pattern) :
    globMatches pattern p.name.toList = false := by
  rw [← Bool.not_eq_true, globMatches, Glob.matchesTokens_iff]
  exact fun hname ↦ p.slash_not_mem_name (hname.mem h)

theorem isIgnored_slash (p : Path) (g : String) :
    p.isIgnored ["/" ++ g] = true ↔
      p.isIgnored [] = true ∨ globMatches g.toList p.toString.toList = true := by
  have hlist : ("/" ++ g).toList = '/' :: g.toList := String.toList_append
  have hmem : .exactly '/' ∈ Glob.tokens ('/' :: g.toList) := List.mem_cons_self
  rw [isIgnored_singleton, hlist, Glob.globMatches_slash_cons, not_globMatches_name_of_mem hmem]
  simp only [Bool.false_eq_true, or_false]

theorem isIgnored_anchored (h : Glob.IsAnchored g.toList) : p.isIgnored [g] = p.isIgnored [] := by
  obtain ⟨token, ts, hts, hrun, haccepts, hmem⟩ := h
  have hname : globMatches g.toList p.name.toList = false :=
    not_globMatches_name_of_mem (hts ▸ List.mem_cons_of_mem token hmem)
  have hslash : ¬ globMatches g.toList ('/' :: p.toString.toList) = true := by
    rw [globMatches, Glob.matchesTokens_iff, hts, Glob.matches_cons hrun, haccepts]
    exact fun h ↦ Bool.false_ne_true h.1
  rw [Bool.eq_iff_iff, isIgnored_singleton, hname, or_iff_left]
  rintro (h | h)
  · exact hslash h
  · cases h

theorem isIgnored_of_own (h : globMatches g.toList p.toString.toList = true) :
    p.isIgnored [g] = true ↔ p.isIgnored [] = true ∨ g.toList.head? = some '*' ∨
      Glob.TakesSlash g.toList p.toString.toList ∨ globMatches g.toList p.name.toList = true := by
  rw [isIgnored_singleton, Glob.globMatches_slash_iff h, or_assoc]

/-- A pattern that matches the written path ignores it only if a star leads the pattern, or if it
matches with the slash in front or the bare name as well; with one slash more it always does. A
pattern that is anchored in a folder ignores no path at all. -/
theorem own_pattern_ignores_iff (p : Path) (g : String) :
    (globMatches g.toList p.toString.toList = true →
      (p.isIgnored [g] = true ↔ p.isIgnored [] = true ∨ g.toList.head? = some '*' ∨
        Glob.TakesSlash g.toList p.toString.toList ∨ globMatches g.toList p.name.toList = true)) ∧
    (p.isIgnored ["/" ++ g] = true ↔
      p.isIgnored [] = true ∨ globMatches g.toList p.toString.toList = true) ∧
    (Glob.IsAnchored g.toList → p.isIgnored [g] = p.isIgnored []) :=
  ⟨isIgnored_of_own, isIgnored_slash p g, isIgnored_anchored⟩

theorem tests_kept_out_by_star :
    (ofString "Tests/Package.swift").isIgnored ["Tests/*"] =
      (ofString "Tests/Package.swift").isIgnored [] ∧
    globMatches "*sts/*".toList (ofString "Tests/Package.swift").toString.toList = true ∧
    (ofString "Tests/Package.swift").isIgnored ["*sts/*"] = true := by
  have hmatches : globMatches "*sts/*".toList
      (ofString "Tests/Package.swift").toString.toList = true := by decide +kernel
  have hanchored := (own_pattern_ignores_iff (ofString "Tests/Package.swift") "Tests/*").2.2
    (Glob.isAnchored_of_folder (by decide : "Tests".toList ≠ []) rfl (by decide))
  have hstar := ((own_pattern_ignores_iff _ _).1 hmatches).2 (.inr (.inl rfl))
  exact ⟨hanchored, hmatches, hstar⟩

theorem own_folder_not_ignored :
    ¬ ∀ (p : Path) (g : String), globMatches g.toList p.toString.toList = true →
      p.isIgnored [g] = true := by
  intro h
  have hmatches : globMatches "Tests/*".toList
      (ofString "Tests/Package.swift").toString.toList = true := by decide +kernel
  have hnot : (ofString "Tests/Package.swift").isIgnored ["Tests/*"] = false := by decide +kernel
  rw [h _ _ hmatches] at hnot
  cases hnot

end Path

end SwiftInventory
