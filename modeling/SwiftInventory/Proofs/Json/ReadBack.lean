import SwiftInventory.Proofs.Json.Written

namespace SwiftInventory.Json

variable {c : Char} {s rest : List Char} {j : Json} {level : Nat}

theorem skipBlanks_append (h : IsBlank s) (rest : List Char) :
    skipBlanks (s ++ rest) = skipBlanks rest :=
  List.dropWhile_append_of_pos fun c hc ↦ List.contains_iff_mem.2 (h c hc)

theorem skipBlanks_cons (h : c ∉ " \t\n\r".toList) : skipBlanks (c :: s) = c :: s :=
  List.dropWhile_cons_of_neg (by rwa [List.contains_iff_mem])

theorem valueFrom_append (h : IsBlank s) (n : Nat) (rest : List Char) :
    valueFrom n (s ++ rest) = valueFrom n rest := by
  cases n with
  | zero => rfl
  | succ n => rw [valueFrom, valueFrom, skipBlanks_append h]

theorem elementsFrom_append (h : IsBlank s) (n : Nat) (done : List Json) (rest : List Char) :
    elementsFrom n done (s ++ rest) = elementsFrom n done rest := by
  cases n with
  | zero => rfl
  | succ n => rw [elementsFrom, elementsFrom, valueFrom_append h]

theorem membersFrom_append (h : IsBlank s) (n : Nat) (done : List (String × Json))
    (rest : List Char) : membersFrom n done (s ++ rest) = membersFrom n done rest := by
  cases n with
  | zero => rfl
  | succ n => rw [membersFrom, membersFrom, skipBlanks_append h]

/-- Nothing that could go on a number. -/
def EndsNumber (rest : List Char) : Prop := ∀ c ∈ rest.head?, isNumberChar c = false

theorem keyword?_of_digit (hc : c.isDigit = true) (s : List Char) :
    keyword? (c :: s) = none ∧ keyword? ('-' :: c :: s) = none := by
  have hword : ∀ d, d.isDigit = false → d ≠ c := fun d hd h ↦ by simp [h, hc] at hd
  have hn := hword 'n' rfl
  have ht := hword 't' rfl
  have hf := hword 'f' rfl
  have hN := hword 'N' rfl
  have hI := hword 'I' rfl
  have hminus := hword '-' rfl
  constructor <;> simp [keyword?, keywords, List.isPrefixOf?, hn, ht, hf, hN, hI, hminus]

theorem Numeral.text_start {l : Numeral} (hl : l.IsWellFormed) :
    ∃ c rest, c.isDigit = true ∧ (l.text = c :: rest ∨ l.text = '-' :: c :: rest) := by
  obtain ⟨c, rest, htext, hc⟩ := Numeral.exists_head hl
  refine ⟨c, rest, hc, ?_⟩
  rw [Numeral.text, htext]
  cases l.negative
  · exact .inl rfl
  · exact .inr rfl

theorem number_start {n : Number} (hn : n.IsWritable) :
    ∃ c rest, n.text = c :: rest ∧ isNumberChar c = true := by
  obtain ⟨l, hl, htext, -⟩ := Number.exists_numeral hn
  have hchars := Numeral.isNumberChar_of_mem_text hl
  rw [htext] at hchars
  have hne : n.text ≠ [] := by
    obtain ⟨c, s, -, h | h⟩ := Numeral.text_start hl <;> simp [← htext, h]
  obtain ⟨c, rest, h⟩ := List.exists_cons_of_ne_nil hne
  exact ⟨c, rest, h, hchars c (h ▸ List.mem_cons_self)⟩

theorem numberOrKeyword?_text {n : Number} (hn : n.IsWritable) (hrest : EndsNumber rest) :
    numberOrKeyword? (n.text ++ rest) = some (number n, rest) := by
  obtain ⟨l, hl, htext, hvalue⟩ := Number.exists_numeral hn
  have hword : keyword? (l.text ++ rest) = none := by
    obtain ⟨c, s, hc, h | h⟩ := Numeral.text_start hl
    · rw [h]
      exact (keyword?_of_digit hc _).1
    · rw [h]
      exact (keyword?_of_digit hc _).2
  rw [← htext, numberOrKeyword?, hword]
  simp only [Text.span_append (Numeral.isNumberChar_of_mem_text hl) hrest, Numeral.number?_text hl,
    hvalue, Option.map_some]

theorem isNumberChar_of_blank : ∀ c ∈ " \t\n\r".toList, isNumberChar c = false := by
  simp [isNumberChar]

/-- How a value starts: with no blank, and not like the end of an array. -/
def Starts (c : Char) : Prop := c ∉ " \t\n\r".toList ∧ c ≠ ']'

theorem starts_of_isNumberChar (hc : isNumberChar c = true) : Starts c := by
  constructor
  · intro h
    rw [isNumberChar_of_blank c h] at hc
    cases hc
  · rintro rfl
    cases hc

theorem textAt_start (level : Nat) (hj : j.IsWritable) :
    ∃ c rest, textAt level j = c :: rest ∧ Starts c := by
  cases j with
  | null => exact ⟨_, _, rfl, by decide, by decide⟩
  | bool b => cases b <;> exact ⟨_, _, rfl, by decide, by decide⟩
  | number n =>
    obtain ⟨c, rest, htext, hc⟩ := number_start (hj n (List.mem_singleton_self n))
    exact ⟨c, rest, htext, starts_of_isNumberChar hc⟩
  | string s => exact ⟨_, _, rfl, by decide, by decide⟩
  | array elements =>
    rw [textAt, enclosed]
    split <;> exact ⟨_, _, rfl, by decide, by decide⟩
  | object members =>
    rw [textAt, enclosed]
    split <;> exact ⟨_, _, rfl, by decide, by decide⟩

theorem valueFrom_string (n : Nat) (s : String) (rest : List Char) :
    valueFrom (n + 1) (stringText s ++ rest) = some (string s, rest) := by
  obtain ⟨text, htext, hread⟩ := stringFrom_stringText s
  rw [htext, List.cons_append, valueFrom, skipBlanks_cons (by decide)]
  simp only [beq_self_eq_true, if_true, hread, Option.map_some]

theorem valueFrom_number {n : Number} (hn : n.IsWritable) (hrest : EndsNumber rest) (fuel : Nat) :
    valueFrom (fuel + 1) (n.text ++ rest) = some (number n, rest) := by
  have hread := numberOrKeyword?_text hn hrest
  obtain ⟨c, s, htext, hc⟩ := number_start hn
  have hmark : ∀ d, isNumberChar d = false → c ≠ d := fun d hd hcd ↦ by simp [hcd ▸ hc] at hd
  rw [htext, List.cons_append] at hread ⊢
  rw [valueFrom, skipBlanks_cons (starts_of_isNumberChar hc).1]
  simpa only [beq_iff_eq, hmark '"' (by decide), hmark '[' (by decide), hmark '\x7b' (by decide),
    if_false] using hread

theorem valueFrom_array (hs : IsBlank s) (hc : Starts c) (n : Nat) (rest : List Char) :
    valueFrom (n + 1) ('[' :: (s ++ c :: rest)) = elementsFrom n [] (c :: rest) := by
  rw [valueFrom, skipBlanks_cons (by decide)]
  have hskip : skipBlanks (s ++ c :: rest) = c :: rest := by
    rw [skipBlanks_append hs, skipBlanks_cons hc.1]
  simp [hskip, hc.2]

theorem elementsFrom_last (hs : IsBlank s) {n : Nat} {done : List Json} {text : List Char}
    (h : valueFrom n text = some (j, s ++ ']' :: rest)) :
    elementsFrom (n + 1) done text = some (array (done.reverse ++ [j]), rest) := by
  rw [elementsFrom, h]
  simp [skipBlanks_append hs, skipBlanks_cons (c := ']') (by decide)]

theorem elementsFrom_separator {n : Nat} {done : List Json} {text : List Char}
    (h : valueFrom n text = some (j, separator level ++ rest)) :
    elementsFrom (n + 1) done text = elementsFrom n (j :: done) rest := by
  have hblank := elementsFrom_append (isBlank_newLine level) n (j :: done) rest
  rw [elementsFrom, h]
  simpa [separator, skipBlanks_cons (c := ',') (by decide)] using hblank

theorem valueFrom_object (hs : IsBlank s) (n : Nat) (rest : List Char) :
    valueFrom (n + 1) ('\x7b' :: (s ++ '"' :: rest)) = membersFrom n [] ('"' :: rest) := by
  rw [valueFrom, skipBlanks_cons (by decide)]
  have hskip : skipBlanks (s ++ '"' :: rest) = '"' :: rest := by
    rw [skipBlanks_append hs, skipBlanks_cons (by decide)]
  simp [hskip]

theorem valueFrom_blank (n : Nat) (text : List Char) :
    valueFrom n (' ' :: text) = valueFrom n text :=
  valueFrom_append (s := [' ']) (by simp [IsBlank]) n text

theorem membersFrom_last (hs : IsBlank s) {n : Nat} {done : List (String × Json)}
    {text : List Char} (key : String) (h : valueFrom n text = some (j, s ++ '\x7d' :: rest)) :
    membersFrom (n + 1) done (stringText key ++ ':' :: ' ' :: text) =
      some (object (done.reverse ++ [(key, j)]), rest) := by
  obtain ⟨inside, hinside, hread⟩ := stringFrom_stringText key
  rw [membersFrom, hinside, List.cons_append, skipBlanks_cons (by decide)]
  simp [hread, skipBlanks_cons (c := ':') (by decide), valueFrom_blank, h,
    skipBlanks_append hs, skipBlanks_cons (c := '\x7d') (by decide)]

theorem membersFrom_separator {n : Nat} {done : List (String × Json)} {text : List Char}
    (key : String) (h : valueFrom n text = some (j, separator level ++ rest)) :
    membersFrom (n + 1) done (stringText key ++ ':' :: ' ' :: text) =
      membersFrom n ((key, j) :: done) rest := by
  obtain ⟨inside, hinside, hread⟩ := stringFrom_stringText key
  have hblank := membersFrom_append (isBlank_newLine level) n ((key, j) :: done) rest
  rw [membersFrom, hinside, List.cons_append, skipBlanks_cons (by decide)]
  simpa [hread, skipBlanks_cons (c := ':') (by decide), valueFrom_blank, h, separator,
    skipBlanks_cons (c := ',') (by decide)] using hblank

theorem endsNumber_separator (level : Nat) (rest : List Char) :
    EndsNumber (separator level ++ rest) := by
  simp [EndsNumber, separator, isNumberChar]

theorem endsNumber_end (hs : IsBlank s) (hc : isNumberChar c = false) (rest : List Char) :
    EndsNumber (s ++ c :: rest) := by
  cases s with
  | nil => simpa [EndsNumber] using hc
  | cons d s => simpa [EndsNumber] using isNumberChar_of_blank d (hs d List.mem_cons_self)

-- The fuel is twice the length of the text: each bracket and each comma takes one step.
def ReadsValue (level : Nat) (j : Json) : Prop := ∀ fuel rest,
  2 * (textAt level j).length ≤ fuel → EndsNumber rest →
    valueFrom fuel (textAt level j ++ rest) = some (j, rest)

def ReadsElements (level : Nat) (elements : List Json) : Prop := ∀ fuel done after rest,
  IsBlank after → 2 * (lines level (elementTexts level elements)).length < fuel →
    elementsFrom fuel done (lines level (elementTexts level elements) ++ (after ++ ']' :: rest)) =
      some (array (done.reverse ++ elements), rest)

def ReadsMembers (level : Nat) (members : List (String × Json)) : Prop := ∀ fuel done after rest,
  IsBlank after → 2 * (lines level (memberTexts level members)).length < fuel →
    membersFrom fuel done (lines level (memberTexts level members) ++ (after ++ '\x7d' :: rest)) =
      some (object (done.reverse ++ members), rest)

variable {elements : List Json} {key : String} {members : List (String × Json)}

theorem exists_fuel {k fuel : Nat} (h : k < fuel) : ∃ n, fuel = n + 1 ∧ k ≤ n :=
  ⟨fuel - 1, by omega, by omega⟩

theorem exists_fuel_textAt {fuel : Nat} (hj : j.IsWritable)
    (hfuel : 2 * (textAt level j).length ≤ fuel) : ∃ n, fuel = n + 1 := by
  obtain ⟨c, rest, htext, -⟩ := textAt_start level hj
  rw [htext, List.length_cons] at hfuel
  exact ⟨fuel - 1, by omega⟩

theorem readsElements_singleton (h : ReadsValue level j) : ReadsElements level [j] := by
  intro fuel done after rest hafter hfuel
  obtain ⟨n, rfl, hn⟩ := exists_fuel hfuel
  rw [elementTexts, elementTexts, lines_singleton] at hn ⊢
  exact elementsFrom_last hafter (h n _ hn (endsNumber_end hafter (by decide) rest))

theorem readsElements_cons (h : ReadsValue level j) (hne : elements ≠ [])
    (helements : ReadsElements level elements) : ReadsElements level (j :: elements) := by
  intro fuel done after rest hafter hfuel
  rw [elementTexts, lines_cons (elementTexts_ne_nil hne)] at hfuel ⊢
  -- The comma of the separator leaves enough fuel for the step that reads it.
  simp only [separator, List.length_append, List.length_cons] at hfuel
  obtain ⟨n, rfl, hn⟩ := exists_fuel hfuel
  have hvalue := h n (separator level ++ (lines level (elementTexts level elements) ++
    (after ++ ']' :: rest))) (by omega) (endsNumber_separator level _)
  have hrest := helements n (j :: done) after rest hafter (by omega)
  simp only [List.append_assoc]
  rw [elementsFrom_separator hvalue, hrest]
  simp

theorem readsMembers_singleton (h : ReadsValue level j) : ReadsMembers level [(key, j)] := by
  intro fuel done after rest hafter hfuel
  rw [memberTexts, memberTexts, lines_singleton] at hfuel ⊢
  simp only [List.length_append, List.length_cons] at hfuel
  obtain ⟨n, rfl, hn⟩ := exists_fuel hfuel
  have hvalue := h n _ (by omega) (endsNumber_end hafter (c := '\x7d') (by decide) rest)
  simp only [List.append_assoc, List.cons_append]
  exact membersFrom_last hafter key hvalue

theorem readsMembers_cons (h : ReadsValue level j) (hne : members ≠ [])
    (hmembers : ReadsMembers level members) : ReadsMembers level ((key, j) :: members) := by
  intro fuel done after rest hafter hfuel
  rw [memberTexts, lines_cons (memberTexts_ne_nil hne)] at hfuel ⊢
  simp only [separator, List.length_append, List.length_cons] at hfuel
  obtain ⟨n, rfl, hn⟩ := exists_fuel hfuel
  have hvalue := h n (separator level ++ (lines level (memberTexts level members) ++
    (after ++ '\x7d' :: rest))) (by omega) (endsNumber_separator level _)
  have hrest := hmembers n ((key, j) :: done) after rest hafter (by omega)
  simp only [List.append_assoc, List.cons_append]
  rw [membersFrom_separator key hvalue, hrest]
  simp

theorem readsValue_array (hj : (array elements).IsWritable)
    (h : elements ≠ [] → ReadsElements (level + 1) elements) :
    ReadsValue level (array elements) := by
  intro fuel rest hfuel _
  cases elements with
  | nil =>
    obtain ⟨n, rfl⟩ := exists_fuel_textAt hj hfuel
    rfl
  | cons j elements =>
    have hfirst : j.IsWritable := fun n hn ↦ hj n (List.mem_append_left _ hn)
    -- Past the blanks the first element starts, and not the end of the array.
    obtain ⟨c, item, hitem, hc⟩ := textAt_start (level + 1) hfirst
    obtain ⟨items, hitems⟩ := lines_start (level + 1) c item (elementTexts (level + 1) elements)
    rw [textAt, elementTexts, enclosed_eq (List.cons_ne_nil _ _), hitem, hitems] at hfuel ⊢
    simp only [List.length_append, List.length_cons] at hfuel
    obtain ⟨n, rfl⟩ : ∃ n, fuel = n + 1 := ⟨fuel - 1, by omega⟩
    have hrest := h (List.cons_ne_nil _ _) n [] (newLine level) rest (isBlank_newLine level)
    rw [elementTexts, hitem, hitems, List.length_cons] at hrest
    simp only [List.cons_append, List.append_assoc, List.nil_append] at hrest ⊢
    rw [valueFrom_array (isBlank_newLine _) hc]
    exact hrest (by omega)

theorem readsValue_object (hj : (object members).IsWritable)
    (h : members ≠ [] → ReadsMembers (level + 1) members) :
    ReadsValue level (object members) := by
  intro fuel rest hfuel _
  cases members with
  | nil =>
    obtain ⟨n, rfl⟩ := exists_fuel_textAt hj hfuel
    rfl
  | cons member members =>
    obtain ⟨key, j⟩ := member
    obtain ⟨inside, hinside, -⟩ := stringFrom_stringText key
    obtain ⟨items, hitems⟩ : ∃ items, lines (level + 1)
        ((stringText key ++ ':' :: ' ' :: textAt (level + 1) j) ::
          memberTexts (level + 1) members) = '"' :: items := by
      rw [hinside]
      exact lines_start _ _ _ _
    rw [textAt, memberTexts, enclosed_eq (List.cons_ne_nil _ _), hitems] at hfuel ⊢
    simp only [List.length_append, List.length_cons] at hfuel
    obtain ⟨n, rfl⟩ : ∃ n, fuel = n + 1 := ⟨fuel - 1, by omega⟩
    have hrest := h (List.cons_ne_nil _ _) n [] (newLine level) rest (isBlank_newLine level)
    rw [memberTexts, hitems, List.length_cons] at hrest
    simp only [List.cons_append, List.append_assoc, List.nil_append] at hrest ⊢
    rw [valueFrom_object (isBlank_newLine _)]
    exact hrest (by omega)

mutual

theorem readsValue (level : Nat) : (j : Json) → j.IsWritable → ReadsValue level j
  | null, hj => fun fuel rest hfuel _ ↦ by
    obtain ⟨n, rfl⟩ := exists_fuel_textAt hj hfuel
    rfl
  | bool b, hj => fun fuel rest hfuel _ ↦ by
    obtain ⟨n, rfl⟩ := exists_fuel_textAt hj hfuel
    cases b <;> rfl
  | number n, hj => fun fuel rest hfuel hrest ↦ by
    obtain ⟨fuel, rfl⟩ := exists_fuel_textAt hj hfuel
    exact valueFrom_number (hj n (List.mem_singleton_self n)) hrest fuel
  | string s, hj => fun fuel rest hfuel _ ↦ by
    obtain ⟨fuel, rfl⟩ := exists_fuel_textAt hj hfuel
    exact valueFrom_string fuel s rest
  | array elements, hj => readsValue_array hj (readsElements (level + 1) elements hj)
  | object members, hj => readsValue_object hj (readsMembers (level + 1) members hj)

theorem readsElements (level : Nat) : (elements : List Json) →
    (∀ n ∈ elementNumbers elements, n.IsWritable) → elements ≠ [] → ReadsElements level elements
  | [], _, hne => absurd rfl hne
  | j :: [], h, _ =>
    readsElements_singleton (readsValue level j fun n hn ↦ h n (List.mem_append_left _ hn))
  | j :: j' :: elements, h, _ =>
    readsElements_cons (readsValue level j fun n hn ↦ h n (List.mem_append_left _ hn))
      (List.cons_ne_nil _ _) (readsElements level (j' :: elements)
        (fun n hn ↦ h n (List.mem_append_right _ hn)) (List.cons_ne_nil _ _))

theorem readsMembers (level : Nat) : (members : List (String × Json)) →
    (∀ n ∈ memberNumbers members, n.IsWritable) → members ≠ [] → ReadsMembers level members
  | [], _, hne => absurd rfl hne
  | (_, j) :: [], h, _ =>
    readsMembers_singleton (readsValue level j fun n hn ↦ h n (List.mem_append_left _ hn))
  | (_, j) :: member :: members, h, _ =>
    readsMembers_cons (readsValue level j fun n hn ↦ h n (List.mem_append_left _ hn))
      (List.cons_ne_nil _ _) (readsMembers level (member :: members)
        (fun n hn ↦ h n (List.mem_append_right _ hn)) (List.cons_ne_nil _ _))

end

theorem parse?_text (hj : j.IsWritable) : parse? j.text = some j := by
  have hread := readsValue 0 j hj (2 * (textAt 0 j).length + 2) [] (by omega) (by simp [EndsNumber])
  rw [List.append_nil] at hread
  rw [parse?, text, String.length_ofList, String.toList_ofList, hread]
  rfl

theorem text_injective (hj : j.IsWritable) {j' : Json} (hj' : j'.IsWritable)
    (h : j.text = j'.text) : j = j' := by
  have hread := parse?_text hj
  rw [h, parse?_text hj'] at hread
  exact (Option.some.inj hread).symm

end SwiftInventory.Json
