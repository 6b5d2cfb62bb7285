import SwiftInventory.Proofs.Manifest.Declaration

namespace SwiftInventory.Manifest

open Text

variable {x y u q t : List Char}

theorem exists_eq_append (h : x ++ y = u ++ q)
    (hcross : ∀ z, z ≠ [] → u = x ++ z → y = z ++ q → False) : ∃ z, x = u ++ z ∧ z ++ y = q := by
  rcases List.append_eq_append_iff.1 h with ⟨z, hu, hy⟩ | ⟨z, rfl, rfl⟩
  · by_cases hz : z = []
    · subst hz
      exact ⟨[], by simpa using hu.symm, by simpa using hy⟩
    · exact (hcross z hz hu hy).elim
  · exact ⟨z, rfl, rfl⟩

theorem head_run_append {p p' : Char → Bool} (r : Run p) (h : ∀ {c}, p c = true → p' c = false)
    (ht : ∀ c ∈ t.head?, p' c = false) : ∀ c ∈ (r.chars ++ t).head?, p' c = false := by
  intro c hc
  cases hr : r.chars with
  | nil => exact ht c (by simpa [hr] using hc)
  | cons d s =>
    obtain rfl : d = c := by simpa [hr] using hc
    exact h (r.all d (by simp [hr]))

theorem AtWordEdge.of_append (h : AtWordEdge (x ++ y)) : AtWordEdge y := by
  intro c hc
  exact h c (by rw [List.getLast?_append, hc]; rfl)

theorem AtWordEdge.eq_nil (h : AtWordEdge x) (hx : ∀ c ∈ x, isWord c = true) : x = [] := by
  by_contra hne
  have hlast := h _ (List.getLast?_eq_some_getLast hne)
  rw [hx _ (List.getLast_mem hne)] at hlast
  cases hlast

variable (d : Declaration)

theorem Declaration.ne_token_append {z : List Char} {b : Run isBlank} {c : Char}
    (hz : ∀ c ∈ z, isTypeNameChar c = true) (hblank : isBlank c = false)
    (hc : isTypeNameChar c = false) : d.text ++ t ≠ z ++ (b.chars ++ c :: q) := by
  intro h
  obtain ⟨e, afterLet, hlet⟩ := List.exists_cons_of_ne_nil d.afterLet_ne_nil
  obtain ⟨n, name, hname⟩ := List.exists_cons_of_ne_nil d.name_ne_nil
  have he : isBlank e = true := d.afterLet.all e (by simp [hlet])
  have hn : isWord n = true := d.name.all n (by simp [hname])
  have hword : ∀ c ∈ "let".toList, isTypeNameChar c = true := fun c hc ↦
    isTypeNameChar_of_isWord (isWord_of_mem_keyword c hc)
  have hkeyword : d.text ++ t = "let".toList ++ (d.afterLet.chars ++
      (d.name.chars ++ (d.typeText ++ d.callText ++ t))) := by simp [text]
  have hgap : d.afterLet.chars ++ (d.name.chars ++ (d.typeText ++ d.callText ++ t)) =
      b.chars ++ c :: q := by
    rw [hkeyword] at h
    have hdrop := congrArg (List.dropWhile isTypeNameChar) h
    rwa [dropWhile_exact hword (by simp [hlet, isTypeNameChar_of_isBlank he]),
      dropWhile_exact hz (head_run_append b isTypeNameChar_of_isBlank (by simpa using hc))] at hdrop
  have hdrop := congrArg (List.dropWhile isBlank) hgap
  have hnblank : isBlank n = false := isBlank_of_isTypeNameChar (isTypeNameChar_of_isWord hn)
  rw [dropWhile_exact d.afterLet.all (by simp [hname, hnblank]),
    dropWhile_exact b.all (by simpa using hblank), hname] at hdrop
  obtain ⟨rfl, -⟩ := List.cons.inj hdrop
  rw [isTypeNameChar_of_isWord hn] at hc
  cases hc

theorem Declaration.not_in_token (hu : 'l' ∉ u) :
    ∀ z, z ≠ [] → u = x ++ z → d.text ++ t = z ++ q → False := by
  rintro z hz rfl hy
  obtain ⟨c, z, rfl⟩ := List.exists_cons_of_ne_nil hz
  obtain ⟨rfl, -⟩ : 'l' = c ∧ _ := List.cons.inj hy
  simp at hu

theorem Declaration.letter_not_mem_callText : 'l' ∉ d.callText := by
  have hblank (r : Run isBlank) : 'l' ∉ r.chars := not_mem_of_run (by decide) r
  simp [callText, hblank]

theorem Declaration.ne_append_typeText {z inside : List Char} (d' : Declaration)
    (hz : ∀ c ∈ z, isTypeNameChar c = true) :
    d.text ++ t ≠ z ++ (d'.typeText ++ (d'.callText ++ inside)) := by
  intro h
  cases hn : d'.typeName with
  | none =>
    exact d.ne_token_append (b := d'.beforeEquals) (c := '=') hz (by decide) (by decide)
      (by simpa [typeText, callText, hn] using h)
  | some typeName =>
    exact d.ne_token_append (b := typeName.beforeColon) (c := ':') hz (by decide) (by decide)
      (by simpa [typeText, TypeName.text, hn] using h)

theorem Declaration.exists_eq_typeText_append {d' : Declaration} {inside : List Char}
    (h : x ++ (d.text ++ t) = d'.typeText ++ (d'.callText ++ inside)) :
    ∃ z, x = d'.typeText ++ z ∧ z ++ (d.text ++ t) = d'.callText ++ inside := by
  cases hn : d'.typeName with
  | none => exact ⟨x, by simp [typeText, hn], by simpa [typeText, hn] using h⟩
  | some typeName =>
    have hcolon : 'l' ∉ typeName.beforeColon.chars ++ (':' :: typeName.afterColon.chars) := by
      have hblank (r : Run isBlank) : 'l' ∉ r.chars := not_mem_of_run (by decide) r
      simp [hblank]
    have h' : x ++ (d.text ++ t) = (typeName.beforeColon.chars ++ (':' ::
        typeName.afterColon.chars)) ++ (typeName.type.chars ++ (d'.callText ++ inside)) := by
      simpa [typeText, TypeName.text, hn] using h
    obtain ⟨y, rfl, hy⟩ := exists_eq_append h' (d.not_in_token hcolon)
    obtain ⟨z, rfl, hz⟩ := exists_eq_append hy fun z _ hz hrest ↦ by
      have htype : ∀ c ∈ z, isTypeNameChar c = true := fun c hc ↦
        typeName.type.all c (by simp [hz, hc])
      exact d.ne_token_append (b := d'.beforeEquals) (c := '=') htype (by decide) (by decide)
        (by simpa [callText] using hrest)
    exact ⟨z, by simp [typeText, TypeName.text, hn], hz⟩

/-- Where a declaration begins at the edge of a word, another one that began before is over. -/
theorem Declaration.exists_eq_text_append {d' : Declaration} {inside : List Char}
    (h : x ++ (d.text ++ t) = d'.text ++ inside) (hx : x ≠ []) (hedge : AtWordEdge x) :
    ∃ z, x = d'.text ++ z := by
  have hparts : d'.text ++ inside = "let".toList ++ (d'.afterLet.chars ++
      (d'.name.chars ++ (d'.typeText ++ (d'.callText ++ inside)))) := by simp [text]
  rw [hparts] at h
  obtain ⟨x₁, rfl, h₁⟩ := exists_eq_append h fun z _ hz _ ↦
    hx (hedge.eq_nil fun c hc ↦ isWord_of_mem_keyword c (by simp [hz, hc]))
  obtain ⟨x₂, rfl, h₂⟩ := exists_eq_append h₁ (d.not_in_token (not_mem_of_run (by decide) _))
  obtain ⟨x₃, rfl, h₃⟩ := exists_eq_append h₂ fun z _ hz hy ↦ by
    have hname : ∀ c ∈ z, isTypeNameChar c = true := fun c hc ↦
      isTypeNameChar_of_isWord (d'.name.all c (by simp [hz, hc]))
    exact d.ne_append_typeText d' hname hy
  obtain ⟨x₄, rfl, h₄⟩ := d.exists_eq_typeText_append h₃
  obtain ⟨x₅, rfl, -⟩ := exists_eq_append h₄ (d.not_in_token d'.letter_not_mem_callText)
  exact ⟨x₅, by simp [text]⟩

end SwiftInventory.Manifest
