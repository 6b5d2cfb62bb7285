import SwiftInventory.Proofs.Markup

namespace SwiftInventory.Markup

variable {s t : List Char} {c : Char} {k n : Nat}

/-- How many backslashes are written before an opening bracket that has `k` before it. -/
def slashesEscaped (k : Nat) (rest : List Char) : Nat := if OpensTag rest then 2 * k + 1 else k

/-- What is written for a text if `k` backslashes stand before it that are not yet written. -/
def escaped (k : Nat) : List Char → List Char
  | [] => List.replicate k '\\'
  | c :: s =>
    if c = '\\' then escaped (k + 1) s
    else List.replicate (if c = '[' then slashesEscaped k s else k) '\\' ++ c :: escaped 0 s

theorem escaped_slash (k : Nat) (s : List Char) : escaped k ('\\' :: s) = escaped (k + 1) s :=
  if_pos rfl

theorem escaped_bracket (k : Nat) (s : List Char) :
    escaped k ('[' :: s) = List.replicate (slashesEscaped k s) '\\' ++ '[' :: escaped 0 s := rfl

theorem escaped_plain (hslash : c ≠ '\\') (hopen : c ≠ '[') (k : Nat) (s : List Char) :
    escaped k (c :: s) = List.replicate k '\\' ++ c :: escaped 0 s := by
  rw [escaped, if_neg hslash, if_neg hopen]

theorem exists_escaped_cons (hslash : c ≠ '\\') (k : Nat) (s : List Char) :
    ∃ n, escaped k (c :: s) = List.replicate n '\\' ++ c :: escaped 0 s :=
  ⟨_, if_neg hslash⟩

theorem escaped_inside (h : ∀ c ∈ s, isBracket c = false) (k : Nat) (t : List Char) :
    escaped k (s ++ ']' :: t) = List.replicate k '\\' ++ s ++ ']' :: escaped 0 t := by
  induction s generalizing k with
  | nil =>
    rw [List.append_nil]
    exact escaped_plain (by decide) (by decide) k t
  | cons c s ih =>
    have hrest := ih fun d hd ↦ h d (List.mem_cons_of_mem c hd)
    have hopen : c ≠ '[' := fun hc ↦ by simpa [hc, isBracket] using h c List.mem_cons_self
    by_cases hslash : c = '\\'
    · subst hslash
      rw [List.cons_append, escaped_slash, hrest, List.replicate_succ']
      simp
    · rw [List.cons_append, escaped_plain hslash hopen, hrest]
      simp

theorem take_append_escaped (h : tagLength? s = some n) :
    s.take n ++ escaped 0 (s.drop n) = escaped 0 s := by
  obtain ⟨inside, after, rfl, hinside, rfl⟩ := eq_of_tagLength?_eq_some h
  have hsplit : inside ++ ']' :: after = (inside ++ [']']) ++ after := by simp
  rw [escaped_inside hinside, hsplit, List.take_left' (by simp), List.drop_left' (by simp)]
  simp

theorem escapeFrom_eq (done : List Char) (k n : Nat) (s : List Char) :
    escapeFrom done k n s = done.reverse ++ (s.take n ++ escaped k (s.drop n)) := by
  induction s generalizing done k n with
  | nil => simp [escapeFrom, escaped]
  | cons c s ih =>
    cases n with
    | succ n => simp [escapeFrom, ih]
    | zero =>
      rw [escapeFrom]
      by_cases hslash : c = '\\'
      · simp [hslash, ih, escaped_slash]
      · by_cases hopen : c = '['
        · subst hopen
          -- The length of a tag is all that is needed to be past it.
          cases hn : tagLength? s with
          | some n =>
            have htag : OpensTag s := isSome_tagLength?.1 (by rw [hn]; rfl)
            simp [escaped_bracket, slashesEscaped, htag, ih, take_append_escaped hn]
          | none =>
            have htag : ¬ OpensTag s := fun h ↦ by simpa [hn] using isSome_tagLength?.2 h
            simp [escaped_bracket, slashesEscaped, htag, ih]
        · simp [hslash, hopen, escaped_plain hslash hopen, ih]

theorem nextBracket?_replicate_append (k : Nat) (s : List Char) :
    nextBracket? (List.replicate k '\\' ++ s) = nextBracket? s := by
  have hnone : nextBracket? (List.replicate k '\\') = none := by
    refine List.find?_eq_none.2 fun c hc ↦ ?_
    rw [List.eq_of_mem_replicate hc]
    decide
  rw [nextBracket?_append, hnone, Option.none_or]

theorem nextBracket?_escaped (k : Nat) (s : List Char) :
    nextBracket? (escaped k s) = nextBracket? s := by
  induction s generalizing k with
  | nil =>
    rw [escaped, ← List.append_nil (List.replicate k _)]
    exact nextBracket?_replicate_append k []
  | cons c s ih =>
    by_cases hslash : c = '\\'
    · subst hslash
      rw [escaped_slash, ih, nextBracket?_cons (by decide)]
    · obtain ⟨n, hn⟩ := exists_escaped_cons hslash k s
      rw [hn, nextBracket?_replicate_append, ← List.singleton_append, nextBracket?_append, ih,
        ← nextBracket?_append, List.singleton_append]

theorem startsTag_bracket (n : Nat) (s : List Char) :
    startsTag (List.replicate n '\\' ++ '[' :: s) = false := by
  cases n <;> rfl

theorem startsTag_escaped_succ (k : Nat) (s : List Char) :
    startsTag (escaped (k + 1) s) = false := by
  induction s generalizing k with
  | nil => rfl
  | cons c s ih =>
    by_cases hslash : c = '\\'
    · subst hslash
      exact ih (k + 1)
    · by_cases hopen : c = '['
      · subst hopen
        exact startsTag_bracket _ _
      · rw [escaped_plain hslash hopen]
        rfl

theorem startsTag_escaped (s : List Char) : startsTag (escaped 0 s) = startsTag s := by
  cases s with
  | nil => rfl
  | cons c s =>
    by_cases hslash : c = '\\'
    · subst hslash
      exact startsTag_escaped_succ 0 s
    · by_cases hopen : c = '['
      · subst hopen
        exact startsTag_bracket _ _
      · rw [escaped_plain hslash hopen]
        rfl

theorem slashesAfter_escaped (k : Nat) (s : List Char) :
    slashesAfter 0 (escaped k s) = slashesAfter k s := by
  induction s generalizing k with
  | nil =>
    rw [escaped, slashesAfter_replicate, Nat.zero_add]
    rfl
  | cons c s ih =>
    by_cases hslash : c = '\\'
    · subst hslash
      rw [escaped_slash, ih]
      rfl
    · obtain ⟨n, hn⟩ := exists_escaped_cons hslash k s
      rw [hn, slashesAfter_append, slashesAfter_cons hslash, slashesAfter_cons hslash, ih]

theorem openings_replicate_append (j k : Nat) (s : List Char) :
    openings j (List.replicate k '\\' ++ s) = openings (j + k) s := by
  induction k generalizing j with
  | zero => rfl
  | succ k ih =>
    rw [List.replicate_succ, List.cons_append, openings_cons (by decide)]
    exact (ih (j + 1)).trans (by rw [Nat.add_right_comm, Nat.add_assoc])

theorem openings_escaped (k : Nat) (s : List Char) :
    openings 0 (escaped k s) =
      (openings k s).map fun o ↦ (slashesEscaped o.1 o.2, escaped 0 o.2) := by
  induction s generalizing k with
  | nil =>
    rw [escaped, ← List.append_nil (List.replicate k _), openings_replicate_append]
    rfl
  | cons c s ih =>
    by_cases hslash : c = '\\'
    · subst hslash
      rw [escaped_slash, ih, openings_cons (by decide)]
      rfl
    · by_cases hopen : c = '['
      · subst hopen
        rw [escaped_bracket, openings_replicate_append, Nat.zero_add, openings, if_pos rfl, ih,
          openings, if_pos rfl]
        rfl
      · rw [escaped_plain hslash hopen, openings_replicate_append, openings_cons hopen,
          openings_cons hopen, slashesAfter_cons hslash, slashesAfter_cons hslash]
        exact ih 0

def addedAtEnd (s : List Char) : List Char := if slashesAtEnd s = 1 then ['\\'] else []

theorem addedAtEnd_plain (s : List Char) : startsTag (addedAtEnd s) = false ∧
    nextBracket? (addedAtEnd s) = none ∧ ∀ k, openings k (addedAtEnd s) = [] := by
  rw [addedAtEnd]
  split
  · exact ⟨rfl, rfl, fun _ ↦ rfl⟩
  · exact ⟨rfl, rfl, fun _ ↦ rfl⟩

theorem guardEnd_eq (s : List Char) : guardEnd s = s ++ addedAtEnd s := by
  obtain ⟨t, rfl⟩ : ∃ t : List Char, s = t.reverse := ⟨s.reverse, s.reverse_reverse.symm⟩
  rw [guardEnd, addedAtEnd, slashesAtEnd, List.rtakeWhile, List.reverse_reverse,
    List.length_reverse]
  split
  · simp
  · next u hu =>
    cases u with
    | nil => simp
    | cons d u =>
      have hd : d ≠ '\\' := fun h ↦ hu u (by rw [h])
      simp [hd]
  · next hno =>
    cases t with
    | nil => simp
    | cons c t =>
      have hc : c ≠ '\\' := fun h ↦ hno t (by rw [h])
      simp [hc]

theorem toList_escape (s : String) :
    (escape s).toList = escaped 0 s.toList ++ addedAtEnd s.toList := by
  rw [escape, String.toList_ofList, escapeFrom_eq, guardEnd_eq]
  simp [addedAtEnd, slashesAtEnd_eq, slashesAfter_escaped]

theorem slashesAtEnd_escape (s : String) : slashesAtEnd (escape s).toList =
    if slashesAtEnd s.toList = 1 then 2 else slashesAtEnd s.toList := by
  rw [toList_escape, slashesAtEnd_eq, slashesAfter_append, slashesAfter_escaped, ← slashesAtEnd_eq,
    addedAtEnd]
  split
  · next h => rw [h]; rfl
  · rfl

theorem even_slashesAtEnd_escape {s : String} : Even (slashesAtEnd (escape s).toList) ↔
    slashesAtEnd s.toList = 1 ∨ Even (slashesAtEnd s.toList) := by
  rw [slashesAtEnd_escape]
  split
  · next h => simp [h]
  · next h => rw [or_iff_right h]

/-- Behind one of the brackets stands the start of a tag whose end is not reached. -/
def LeavesTagOpen (s : List Char) : Prop :=
  ∃ before rest, s = before ++ '[' :: rest ∧ startsTag rest = true ∧ nextBracket? rest = none ∧
    Even (slashesAtEnd before)

theorem startsTag_append (ht : startsTag t = false) (s : List Char) :
    startsTag (s ++ t) = startsTag s := by
  cases s with
  | nil => exact ht
  | cons c s => rfl

theorem opensTag_append (ht : startsTag t = false) : OpensTag (s ++ t) ↔
    OpensTag s ∨ startsTag s = true ∧ nextBracket? s = none ∧ nextBracket? t = some ']' := by
  rw [opensTag_iff, opensTag_iff, startsTag_append ht, nextBracket?_append]
  cases nextBracket? s <;> simp

theorem openings_escape (s : String) : openings 0 (escape s).toList =
    (openings 0 s.toList).map
      fun o ↦ (slashesEscaped o.1 o.2, escaped 0 o.2 ++ addedAtEnd s.toList) := by
  rw [toList_escape, openings_append, (addedAtEnd_plain _).2.2, openings_escaped,
    List.append_nil, List.map_map]
  rfl

theorem nextBracket?_escaped_append (s r : List Char) :
    nextBracket? (escaped 0 r ++ addedAtEnd s) = nextBracket? r := by
  rw [nextBracket?_append, nextBracket?_escaped, (addedAtEnd_plain s).2.1, Option.or_none]

theorem nextBracket?_escape (s : String) :
    nextBracket? (escape s).toList = nextBracket? s.toList := by
  rw [toList_escape, nextBracket?_escaped_append]

theorem opensTag_escaped_append (ht : startsTag t = false) (s r : List Char) :
    OpensTag (escaped 0 r ++ addedAtEnd s ++ t) ↔ OpensTag (r ++ t) := by
  rw [opensTag_iff, opensTag_iff, nextBracket?_append, nextBracket?_escaped_append,
    ← nextBracket?_append, startsTag_append ht, startsTag_append (addedAtEnd_plain s).1,
    startsTag_escaped, startsTag_append ht]

/-- Before another text the only tag that can take effect is one that the other text closes. -/
theorem odd_openings_escape (s : String) (ht : startsTag t = false) :
    (∀ o ∈ openings 0 (escape s).toList, OpensTag (o.2 ++ t) → Odd o.1) ↔
      ¬ (LeavesTagOpen s.toList ∧ nextBracket? t = some ']') := by
  simp only [openings_escape, List.forall_mem_map, opensTag_escaped_append ht]
  simp only [opensTag_append ht]
  constructor
  · rintro h ⟨⟨before, rest, hs, hstart, hnone, heven⟩, hclose⟩
    have htag : ¬ OpensTag rest := fun htag ↦ by simp [(opensTag_iff.1 htag).2] at hnone
    have hodd := h (_, rest) (mem_openings.2 ⟨before, hs, rfl⟩) (.inr ⟨hstart, hnone, hclose⟩)
    rw [slashesEscaped, if_neg htag, ← slashesAtEnd_eq] at hodd
    exact Nat.not_odd_iff_even.2 heven hodd
  · rintro h ⟨n, rest⟩ ho htag
    -- A tag of the text itself is escaped, one that only the other text closes is not.
    rw [slashesEscaped]
    split
    · exact odd_two_mul_add_one n
    · next hno =>
      obtain ⟨hstart, hnone, hclose⟩ := htag.resolve_left hno
      obtain ⟨before, hs, hn⟩ := mem_openings.1 ho
      rw [← slashesAtEnd_eq] at hn
      rw [← Nat.not_even_iff_odd, ← hn]
      exact fun heven ↦ h ⟨⟨before, rest, hs, hstart, hnone, heven⟩, hclose⟩

end SwiftInventory.Markup
