import Mathlib.Data.List.Basic

namespace SwiftInventory.Text

structure Run (p : Char → Bool) where
  chars : List Char
  all : ∀ c ∈ chars, p c = true

def Run.of (p : Char → Bool) (text : String) (h : text.toList.all p = true) : Run p :=
  ⟨text.toList, List.all_eq_true.1 h⟩

inductive Pattern
  | literal (text : List Char)
  | one (p : Char → Bool)
  | run (p : Char → Bool)
  | optional (a : Pattern)
  | seq (a b : Pattern)

namespace Pattern

def some (p : Char → Bool) : Pattern := seq (one p) (run p)

def sequence (parts : List Pattern) : Pattern := parts.foldr seq (literal [])

def Matches : Pattern → List Char → Prop
  | literal text, s => s = text
  | one p, s => ∃ c, p c = true ∧ s = [c]
  | run p, s => ∀ c ∈ s, p c = true
  | optional a, s => s = [] ∨ a.Matches s
  | seq a b, s => ∃ u v, a.Matches u ∧ b.Matches v ∧ s = u ++ v

/-- A run takes as much as it can and gives back one character after the other. -/
def runRests (p : Char → Bool) : List Char → List (List Char)
  | [] => [[]]
  | c :: s => if p c then runRests p s ++ [c :: s] else [c :: s]

/-- What is left of a text once its front has matched, for every way to match; the first one is
tried first. -/
def rests : Pattern → List Char → List (List Char)
  | literal text, s => (text.isPrefixOf? s).toList
  | one p, c :: s => if p c then [s] else []
  | one _, [] => []
  | run p, s => runRests p s
  | optional a, s => a.rests s ++ [s]
  | seq a b, s => (a.rests s).flatMap b.rests

variable {p : Char → Bool} {a : Pattern} {parts others : List Pattern}
  {s rest text : List Char} {c d : Char} {α : Type}

theorem matches_run : (run p).Matches s ↔ ∃ r : Run p, s = r.chars :=
  ⟨fun h ↦ ⟨⟨s, h⟩, rfl⟩, by rintro ⟨r, rfl⟩; exact r.all⟩

theorem matches_some : (some p).Matches s ↔ ∃ r : Run p, r.chars ≠ [] ∧ s = r.chars := by
  constructor
  · rintro ⟨_, v, ⟨c, hc, rfl⟩, hv, rfl⟩
    exact ⟨⟨c :: v, List.forall_mem_cons.2 ⟨hc, hv⟩⟩, List.cons_ne_nil c v, rfl⟩
  · rintro ⟨⟨chars, hall⟩, hne, rfl⟩
    obtain ⟨c, v, rfl⟩ := List.exists_cons_of_ne_nil hne
    obtain ⟨hc, hv⟩ := List.forall_mem_cons.1 hall
    exact ⟨[c], v, ⟨c, hc, rfl⟩, hv, rfl⟩

theorem matches_nil : (sequence []).Matches s ↔ s = [] := Iff.rfl

theorem matches_sequence_cons :
    (sequence (a :: parts)).Matches s ↔
      ∃ u v, a.Matches u ∧ (sequence parts).Matches v ∧ s = u ++ v := Iff.rfl

theorem matches_literal_cons :
    (sequence (literal text :: parts)).Matches s ↔
      ∃ t, (sequence parts).Matches t ∧ s = text ++ t := by
  simp [matches_sequence_cons, Matches]

theorem matches_run_cons :
    (sequence (run p :: parts)).Matches s ↔
      ∃ (r : Run p) (t : List Char), (sequence parts).Matches t ∧ s = r.chars ++ t := by
  simp only [matches_sequence_cons, matches_run]
  constructor
  · rintro ⟨_, t, ⟨r, rfl⟩, ht, rfl⟩
    exact ⟨r, t, ht, rfl⟩
  · rintro ⟨r, t, ht, rfl⟩
    exact ⟨r.chars, t, ⟨r, rfl⟩, ht, rfl⟩

theorem matches_some_cons :
    (sequence (some p :: parts)).Matches s ↔
      ∃ (r : Run p) (t : List Char), r.chars ≠ [] ∧ (sequence parts).Matches t ∧
        s = r.chars ++ t := by
  simp only [matches_sequence_cons, matches_some]
  constructor
  · rintro ⟨_, t, ⟨r, hr, rfl⟩, ht, rfl⟩
    exact ⟨r, t, hr, ht, rfl⟩
  · rintro ⟨r, t, hr, ht, rfl⟩
    exact ⟨r.chars, t, ⟨r, hr, rfl⟩, ht, rfl⟩

theorem mem_runRests :
    rest ∈ runRests p s ↔ ∃ u, (∀ c ∈ u, p c = true) ∧ s = u ++ rest := by
  induction s with
  | nil => simp [runRests]
  | cons c s ih =>
    rw [runRests]
    constructor
    · intro h
      split at h <;> rename_i hc
      · rcases List.mem_append.1 h with h | h
        · obtain ⟨u, hu, rfl⟩ := ih.1 h
          exact ⟨c :: u, List.forall_mem_cons.2 ⟨hc, hu⟩, rfl⟩
        · exact ⟨[], by simp, (List.mem_singleton.1 h).symm⟩
      · exact ⟨[], by simp, (List.mem_singleton.1 h).symm⟩
    · rintro ⟨u, hu, h⟩
      cases u with
      | nil =>
        obtain rfl : c :: s = rest := h
        split <;> simp
      | cons d u =>
        obtain ⟨rfl, rfl⟩ := List.cons.inj h
        obtain ⟨hc, hu⟩ := List.forall_mem_cons.1 hu
        rw [if_pos hc]
        exact List.mem_append_left _ (ih.2 ⟨u, hu, rfl⟩)

/-- The search misses no way to match and makes up none. -/
theorem mem_rests : rest ∈ a.rests s ↔ ∃ t, a.Matches t ∧ s = t ++ rest := by
  induction a generalizing s rest with
  | literal text =>
    rw [rests, Option.mem_toList, List.isPrefixOf?_eq_some_iff_append_eq]
    simp [Matches, eq_comm]
  | one p =>
    cases s with
    | nil => simp [rests, Matches]
    | cons c s =>
      rw [rests]
      constructor
      · intro h
        split at h <;> rename_i hc
        · exact ⟨[c], ⟨c, hc, rfl⟩, by rw [List.mem_singleton.1 h]; rfl⟩
        · cases h
      · rintro ⟨_, ⟨d, hd, rfl⟩, h⟩
        obtain ⟨rfl, rfl⟩ := List.cons.inj h
        simp [hd]
  | run p => exact mem_runRests
  | optional a ih =>
    rw [rests, List.mem_append, ih, List.mem_singleton]
    constructor
    · rintro (⟨t, ht, rfl⟩ | rfl)
      · exact ⟨t, .inr ht, rfl⟩
      · exact ⟨[], .inl rfl, rfl⟩
    · rintro ⟨t, rfl | ht, rfl⟩
      · exact .inr rfl
      · exact .inl ⟨t, ht, rfl⟩
  | seq a b iha ihb =>
    rw [rests, List.mem_flatMap]
    constructor
    · rintro ⟨_, hu, hrest⟩
      obtain ⟨t, ht, rfl⟩ := iha.1 hu
      obtain ⟨t', ht', rfl⟩ := ihb.1 hrest
      exact ⟨t ++ t', ⟨t, t', ht, ht', rfl⟩, by simp⟩
    · rintro ⟨_, ⟨t, t', ht, ht', rfl⟩, rfl⟩
      exact ⟨t' ++ rest, iha.2 ⟨t, ht, by simp⟩, ihb.2 ⟨t', ht', rfl⟩⟩

theorem rests_sequence_cons :
    (sequence (a :: parts)).rests s = (a.rests s).flatMap (sequence parts).rests := rfl

theorem rests_literal_cons :
    (sequence (literal text :: parts)).rests s =
      (text.isPrefixOf? s).toList.flatMap (sequence parts).rests := rfl

theorem rests_sequence_append :
    (sequence (parts ++ others)).rests s =
      ((sequence parts).rests s).flatMap (sequence others).rests := by
  induction parts generalizing s with
  | nil => exact (List.flatMap_singleton ..).symm
  | cons a parts ih =>
    rw [List.cons_append, rests_sequence_cons, rests_sequence_cons, List.flatMap_assoc]
    exact congrArg (List.flatMap · _) (funext fun _ ↦ ih)

theorem rests_sequence_singleton : (sequence [a]).rests s = a.rests s :=
  List.flatMap_singleton' _

/-- Nothing is gained by giving characters back where what follows cannot begin with one. -/
theorem rests_run_cons (h : ∀ c s, p c = true → (sequence parts).rests (c :: s) = []) :
    (sequence (run p :: parts)).rests s = (sequence parts).rests (s.dropWhile p) := by
  rw [rests_sequence_cons, rests]
  induction s with
  | nil => simp [runRests]
  | cons c s ih =>
    rw [runRests]
    split <;> rename_i hc
    · rw [List.flatMap_append, ih, List.flatMap_singleton, h c s hc, List.append_nil,
        List.dropWhile_cons_of_pos hc]
    · rw [List.flatMap_singleton, List.dropWhile_cons_of_neg hc]

theorem isPrefixOf?_cons_of_ne (h : d ≠ c) : (d :: text).isPrefixOf? (c :: s) = none := by
  simp [List.isPrefixOf?, h]

theorem rests_literal_cons_of_ne (h : d ≠ c) :
    (sequence (literal (d :: text) :: parts)).rests (c :: s) = [] := by
  rw [rests_literal_cons, isPrefixOf?_cons_of_ne h]
  rfl

theorem rests_run_literal_cons (hd : p d = false) :
    (sequence (run p :: literal (d :: text) :: parts)).rests s =
      (sequence (literal (d :: text) :: parts)).rests (s.dropWhile p) := by
  refine rests_run_cons fun c s hc ↦ rests_literal_cons_of_ne ?_
  rintro rfl
  rw [hd] at hc
  cases hc

theorem rests_some_cons (h : ∀ c s, p c = true → (sequence parts).rests (c :: s) = []) :
    (sequence (some p :: parts)).rests (c :: s) =
      if p c then (sequence parts).rests (s.dropWhile p) else [] := by
  rw [rests_sequence_cons, some, rests, List.flatMap_assoc, rests]
  split
  · exact (List.flatMap_singleton ..).trans (rests_run_cons h)
  · rfl

theorem mem_rests_nil : rest ∈ (sequence []).rests s ↔ rest = s := by
  rw [mem_rests]
  simp [matches_nil, eq_comm]

theorem mem_rests_literal_cons :
    rest ∈ (sequence (literal text :: parts)).rests s ↔
      ∃ t, s = text ++ t ∧ rest ∈ (sequence parts).rests t := by
  rw [rests_sequence_cons, List.mem_flatMap]
  simp only [mem_rests (a := literal text), Matches, exists_eq_left]

theorem mem_rests_run_cons :
    rest ∈ (sequence (run p :: parts)).rests s ↔
      ∃ u t, (∀ c ∈ u, p c = true) ∧ s = u ++ t ∧ rest ∈ (sequence parts).rests t := by
  rw [rests_sequence_cons, List.mem_flatMap]
  constructor
  · rintro ⟨t, ht, hrest⟩
    obtain ⟨u, hu, rfl⟩ := mem_runRests.1 ht
    exact ⟨u, t, hu, rfl, hrest⟩
  · rintro ⟨u, t, hu, rfl, hrest⟩
    exact ⟨t, mem_runRests.2 ⟨u, hu, rfl⟩, hrest⟩

theorem mem_rests_append :
    rest ∈ (sequence (parts ++ others)).rests s ↔
      ∃ t ∈ (sequence parts).rests s, rest ∈ (sequence others).rests t := by
  rw [rests_sequence_append, List.mem_flatMap]

theorem mem_rests_optional_cons :
    rest ∈ (sequence (optional a :: parts)).rests s ↔
      ∃ t, (t = s ∨ t ∈ a.rests s) ∧ rest ∈ (sequence parts).rests t := by
  rw [rests_sequence_cons, List.mem_flatMap]
  simp only [rests, List.mem_append, List.mem_singleton, or_comm]

theorem head?_runRests : (runRests p s).head? = Option.some (s.dropWhile p) := by
  induction s with
  | nil => rfl
  | cons c s ih =>
    rw [runRests]
    split <;> rename_i hc
    · rw [List.head?_append, ih, List.dropWhile_cons_of_pos hc]
      rfl
    · rw [List.dropWhile_cons_of_neg hc]
      rfl

theorem head?_flatMap_runRests (l : List (List Char)) (g : List Char → List Char → α) :
    (l.flatMap fun t ↦ (runRests p t).map (g t)).head? =
      l.head?.map fun t ↦ g t (t.dropWhile p) := by
  cases l with
  | nil => rfl
  | cons t l =>
    rw [List.flatMap_cons, List.head?_append, List.head?_map, head?_runRests]
    rfl

theorem head?_rests_run :
    ((sequence (parts ++ [run p])).rests s).head? =
      ((sequence parts).rests s).head?.map (·.dropWhile p) := by
  have h := head?_flatMap_runRests (p := p) ((sequence parts).rests s) fun _ rest ↦ rest
  simp only [List.map_id'] at h
  rw [rests_sequence_append, ← h]
  refine congrArg (fun f ↦ (List.flatMap f _).head?) (funext fun t ↦ ?_)
  exact rests_sequence_singleton

/-- What is tried first decides, if it leads to a match whenever anything does. -/
theorem head?_flatMap_of_first {l : List (List Char)} {f : List Char → List α} {t : List Char}
    (ht : l.head? = Option.some t) (h : ∀ t' ∈ l, f t' ≠ [] → f t ≠ []) :
    (l.flatMap f).head? = (f t).head? := by
  obtain ⟨l, rfl⟩ := List.head?_eq_some_iff.1 ht
  rw [List.flatMap_cons, List.head?_append]
  cases hf : f t with
  | cons a _ => rfl
  | nil =>
    have hnil : l.flatMap f = [] := List.flatMap_eq_nil_iff.2 fun t' ht' ↦ by
      by_contra hne
      exact h t' (List.mem_cons_of_mem _ ht') hne hf
    rw [hnil]
    rfl

end Pattern

end SwiftInventory.Text
