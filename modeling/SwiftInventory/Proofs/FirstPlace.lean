import Mathlib.Data.List.Basic

namespace SwiftInventory.Text

variable {α : Type} {f : Option Char → List Char → Option α} {P Q : List Char → List Char → Prop}
  {a : α} {s before after : List Char}

/-- `P` holds between the two parts of a text and at no place further to the left. -/
def IsFirst (P : List Char → List Char → Prop) (before after : List Char) : Prop :=
  P before after ∧
    ∀ before' after', before' ++ after' = before ++ after → P before' after' → before <+: before'

theorem IsFirst.congr (h : IsFirst P before after) (hPQ : ∀ b a, P b a ↔ Q b a) :
    IsFirst Q before after :=
  ⟨(hPQ _ _).1 h.1, fun b a he hq ↦ h.2 b a he ((hPQ b a).2 hq)⟩

/-- What `f` makes of the text from the first place on where it makes anything of it. At each place
it is told which character stands before. -/
def search (f : Option Char → List Char → Option α) (before : Option Char) : List Char → Option α
  | [] => f before []
  | c :: s => (f before (c :: s)).or (search f (some c) s)

theorem search_eq_none_from (before : List Char) :
    search f before.getLast? s = none ↔
      ∀ u v, s = u ++ v → f (before ++ u).getLast? v = none := by
  induction s generalizing before with
  | nil => simp +contextual [search]
  | cons c s ih =>
    have hlast : some c = (before ++ [c]).getLast? := by simp
    rw [search, Option.or_eq_none_iff, hlast, ih]
    constructor
    · rintro ⟨hc, hs⟩ u v he
      cases u with
      | nil =>
        obtain rfl : c :: s = v := he
        simpa using hc
      | cons d u =>
        obtain ⟨rfl, rfl⟩ := List.cons.inj he
        simpa using hs u v rfl
    · intro h
      refine ⟨by simpa using h [] (c :: s) rfl, fun u v he ↦ ?_⟩
      simpa using h (c :: u) v (by simp [he])

theorem search_eq_none :
    search f none s = none ↔ ∀ u v, s = u ++ v → f u.getLast? v = none := by
  simpa using search_eq_none_from []

theorem search_eq_some_from (before : List Char) :
    search f before.getLast? s = some a ↔
      ∃ u v, s = u ++ v ∧ f (before ++ u).getLast? v = some a ∧
        ∀ u' v', s = u' ++ v' → f (before ++ u').getLast? v' ≠ none → u <+: u' := by
  induction s generalizing before with
  | nil => simp [search]
  | cons c s ih =>
    have hlast : some c = (before ++ [c]).getLast? := by simp
    rw [search, Option.or_eq_some_iff, hlast, ih]
    constructor
    · rintro (h | ⟨hc, u, v, rfl, h, hfirst⟩)
      · exact ⟨[], c :: s, rfl, by simpa using h, fun _ _ _ _ ↦ List.nil_prefix⟩
      · refine ⟨c :: u, v, rfl, by simpa using h, fun u' v' he hne ↦ ?_⟩
        cases u' with
        | nil =>
          obtain rfl : c :: (u ++ v) = v' := he
          simp [hc] at hne
        | cons d u' =>
          obtain ⟨rfl, hs⟩ := List.cons.inj he
          exact (List.prefix_cons_inj c).2 (hfirst u' v' hs (by simpa using hne))
    · rintro ⟨u, v, he, h, hfirst⟩
      cases u with
      | nil =>
        obtain rfl : c :: s = v := he
        exact .inl (by simpa using h)
      | cons d u =>
        obtain ⟨rfl, rfl⟩ : c = d ∧ s = u ++ v := List.cons.inj he
        refine .inr ⟨?_, u, v, rfl, by simpa using h, fun u' v' he hne ↦ ?_⟩
        · by_contra hc
          simpa using hfirst [] (c :: (u ++ v)) rfl (by simpa using hc)
        · exact (List.prefix_cons_inj c).1 (hfirst (c :: u') v' (by simp [he]) (by simpa using hne))

theorem search_eq_some :
    search f none s = some a ↔
      ∃ before after, s = before ++ after ∧ f before.getLast? after = some a ∧
        IsFirst (fun b t ↦ f b.getLast? t ≠ none) before after := by
  have h := search_eq_some_from (f := f) (s := s) (a := a) []
  simp only [List.getLast?_nil, List.nil_append] at h
  rw [h]
  constructor
  · rintro ⟨u, v, rfl, hf, hfirst⟩
    exact ⟨u, v, rfl, hf, by simp [hf], fun b t he hb ↦ hfirst b t he.symm hb⟩
  · rintro ⟨u, v, rfl, hf, -, hfirst⟩
    exact ⟨u, v, rfl, hf, fun b t he hb ↦ hfirst b t he.symm hb⟩

end SwiftInventory.Text
