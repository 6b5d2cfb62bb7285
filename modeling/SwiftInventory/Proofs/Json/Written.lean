import SwiftInventory.Proofs.Json.Strings
import SwiftInventory.Proofs.Number.Text

namespace SwiftInventory.Json

mutual

def numbers : Json → List Number
  | number n => [n]
  | array elements => elementNumbers elements
  | object members => memberNumbers members
  | _ => []

def elementNumbers : List Json → List Number
  | [] => []
  | j :: rest => numbers j ++ elementNumbers rest

def memberNumbers : List (String × Json) → List Number
  | [] => []
  | (_, j) :: rest => numbers j ++ memberNumbers rest

end

def IsWritable (j : Json) : Prop := ∀ n ∈ j.numbers, n.IsWritable

variable {j : Json} {level : Nat} {item before after : List Char} {items : List (List Char)}
  {elements : List Json} {key : String} {members : List (String × Json)}

theorem isBlank_newLine (level : Nat) : IsBlank (newLine level) := by
  intro c hc
  rcases List.mem_cons.1 hc with rfl | hc
  · decide
  · rw [List.eq_of_mem_replicate hc]
    decide

def separator (level : Nat) : List Char := ',' :: newLine level

def lines (level : Nat) (items : List (List Char)) : List Char :=
  (separator level).intercalate items

theorem lines_singleton : lines level [item] = item := by simp [lines]

theorem lines_cons (hne : items ≠ []) :
    lines level (item :: items) = item ++ (separator level ++ lines level items) := by
  obtain ⟨next, items, rfl⟩ := List.exists_cons_of_ne_nil hne
  simp [lines]

theorem lines_start (level : Nat) (c : Char) (item : List Char) (items : List (List Char)) :
    ∃ rest, lines level ((c :: item) :: items) = c :: rest := by
  rcases eq_or_ne items [] with rfl | hne
  · exact ⟨item, lines_singleton⟩
  · exact ⟨_, lines_cons hne⟩

theorem enclosed_eq (hne : items ≠ []) (opening closing : Char) :
    enclosed opening closing level items = opening :: (newLine (level + 1) ++
      (lines (level + 1) items ++ (newLine level ++ [closing]))) := by
  rw [enclosed, if_neg (by simpa using hne)]
  simp [lines, separator, List.append_assoc]

theorem elementTexts_ne_nil (h : elements ≠ []) : elementTexts level elements ≠ [] := by
  obtain ⟨j, elements, rfl⟩ := List.exists_cons_of_ne_nil h
  simp [elementTexts]

theorem memberTexts_ne_nil (h : members ≠ []) : memberTexts level members ≠ [] := by
  obtain ⟨⟨key, j⟩, members, rfl⟩ := List.exists_cons_of_ne_nil h
  simp [memberTexts]

theorem isNumber_text {n : Number} (hn : n.IsWritable) : IsNumber n.text := by
  obtain ⟨l, hl, htext, -⟩ := Number.exists_numeral hn
  rw [← htext]
  exact Numeral.isNumber_text hl

theorem isBlank_nil : IsBlank [] := fun _ hc ↦ absurd hc List.not_mem_nil

/-- The blanks around the lines belong to the first and the last item, those after a comma to the
next one. -/
def IsElementLines (level : Nat) (elements : List Json) : Prop := ∀ before after,
  IsBlank before → IsBlank after →
    IsElements (before ++ (lines level (elementTexts level elements) ++ after))

def IsMemberLines (level : Nat) (members : List (String × Json)) : Prop := ∀ before after,
  IsBlank before → IsBlank after →
    IsMembers (before ++ (lines level (memberTexts level members) ++ after))

theorem isElementLines_singleton (h : IsValue (textAt level j)) : IsElementLines level [j] := by
  intro before after hbefore hafter
  have helement := IsElements.last (IsElement.mk hbefore h hafter)
  rwa [elementTexts, elementTexts, lines_singleton, ← List.append_assoc]

theorem isElementLines_cons (h : IsValue (textAt level j)) (hne : elements ≠ [])
    (helements : IsElementLines level elements) : IsElementLines level (j :: elements) := by
  intro before after hbefore hafter
  have hfirst := IsElement.mk hbefore h isBlank_nil
  have hrest := helements (newLine level) after (isBlank_newLine level) hafter
  have hall := IsElements.cons hfirst hrest
  rw [elementTexts, lines_cons (elementTexts_ne_nil hne)]
  simpa [separator] using hall

theorem isMember_textAt (hbefore : IsBlank before) (key : String) (h : IsValue (textAt level j))
    (hafter : IsBlank after) :
    IsMember (before ++ ((stringText key ++ ':' :: ' ' :: textAt level j) ++ after)) := by
  have hspace : IsBlank [' '] := by simp [IsBlank]
  have hmember := IsMember.mk hbefore (isString_stringText key) isBlank_nil
    (IsElement.mk hspace h hafter)
  simpa using hmember

theorem isMemberLines_singleton (h : IsValue (textAt level j)) :
    IsMemberLines level [(key, j)] := by
  intro before after hbefore hafter
  rw [memberTexts, memberTexts, lines_singleton]
  exact .last (isMember_textAt hbefore key h hafter)

theorem isMemberLines_cons (h : IsValue (textAt level j)) (hne : members ≠ [])
    (hmembers : IsMemberLines level members) : IsMemberLines level ((key, j) :: members) := by
  intro before after hbefore hafter
  have hfirst := isMember_textAt hbefore key h isBlank_nil
  have hrest := hmembers (newLine level) after (isBlank_newLine level) hafter
  have hall := IsMembers.cons hfirst hrest
  rw [memberTexts, lines_cons (memberTexts_ne_nil hne)]
  simpa [separator] using hall

theorem isValue_array (h : elements ≠ [] → IsElementLines (level + 1) elements) :
    IsValue (textAt level (array elements)) := by
  rw [textAt]
  by_cases hne : elements = []
  · rw [hne]
    exact .emptyArray isBlank_nil
  · have hlines := h hne _ _ (isBlank_newLine (level + 1)) (isBlank_newLine level)
    rw [enclosed_eq (elementTexts_ne_nil hne)]
    simpa using IsValue.array hlines

theorem isValue_object (h : members ≠ [] → IsMemberLines (level + 1) members) :
    IsValue (textAt level (object members)) := by
  rw [textAt]
  by_cases hne : members = []
  · rw [hne]
    exact .emptyObject isBlank_nil
  · have hlines := h hne _ _ (isBlank_newLine (level + 1)) (isBlank_newLine level)
    rw [enclosed_eq (memberTexts_ne_nil hne)]
    simpa using IsValue.object hlines

mutual

theorem isValue_textAt (level : Nat) : (j : Json) → j.IsWritable → IsValue (textAt level j)
  | null, _ => .null
  | bool true, _ => .true
  | bool false, _ => .false
  | number n, hj => .number (isNumber_text (hj n (List.mem_singleton_self n)))
  | string s, _ => .string (isString_stringText s)
  | array elements, hj => isValue_array (isElementLines (level + 1) elements hj)
  | object members, hj => isValue_object (isMemberLines (level + 1) members hj)

theorem isElementLines (level : Nat) : (elements : List Json) →
    (∀ n ∈ elementNumbers elements, n.IsWritable) → elements ≠ [] → IsElementLines level elements
  | [], _, hne => absurd rfl hne
  | j :: [], h, _ =>
    isElementLines_singleton (isValue_textAt level j fun n hn ↦ h n (List.mem_append_left _ hn))
  | j :: j' :: elements, h, _ =>
    isElementLines_cons (isValue_textAt level j fun n hn ↦ h n (List.mem_append_left _ hn))
      (List.cons_ne_nil _ _) (isElementLines level (j' :: elements)
        (fun n hn ↦ h n (List.mem_append_right _ hn)) (List.cons_ne_nil _ _))

theorem isMemberLines (level : Nat) : (members : List (String × Json)) →
    (∀ n ∈ memberNumbers members, n.IsWritable) → members ≠ [] → IsMemberLines level members
  | [], _, hne => absurd rfl hne
  | (_, j) :: [], h, _ =>
    isMemberLines_singleton (isValue_textAt level j fun n hn ↦ h n (List.mem_append_left _ hn))
  | (_, j) :: member :: members, h, _ =>
    isMemberLines_cons (isValue_textAt level j fun n hn ↦ h n (List.mem_append_left _ hn))
      (List.cons_ne_nil _ _) (isMemberLines level (member :: members)
        (fun n hn ↦ h n (List.mem_append_right _ hn)) (List.cons_ne_nil _ _))

end

theorem isText_text (hj : j.IsWritable) : IsText j.text := by
  have htext := IsElement.mk isBlank_nil (isValue_textAt 0 j hj) isBlank_nil
  rwa [List.append_nil, List.nil_append, ← String.toList_ofList (l := textAt 0 j)] at htext

end SwiftInventory.Json
