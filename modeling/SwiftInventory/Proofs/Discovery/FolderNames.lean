import SwiftInventory.Proofs.Discovery.Placement

namespace SwiftInventory.Path

variable {p q : Path} {names texts : List String} {name : String}

def folders (p : Path) : List String := p.texts.dropLast

/-- The name of a folder as far as the default patterns ask for it. A name that only contains one
of theirs, or resembles it, does not count. -/
def askedName? (name : String) : Option String :=
  if name ∈ ignoredFolders.flatten then some name else none

theorem askedName?_of_mem (hnames : names ∈ ignoredFolders) (hname : name ∈ names) :
    askedName? name = some name := if_pos (List.mem_flatten_of_mem hnames hname)

theorem eq_of_askedName? {name' : String} (h : askedName? name = some name') : name = name' := by
  rw [askedName?] at h
  split at h
  · exact Option.some.inj h
  · cases h

theorem eq_of_map_askedName? (h : texts.map askedName? = names.map some) : texts = names := by
  induction texts generalizing names with
  | nil => exact (List.map_eq_nil_iff.1 h.symm).symm
  | cons text texts ih =>
    cases names with
    | nil => cases h
    | cons name names =>
      obtain ⟨hname, hnames⟩ := List.cons.inj h
      rw [eq_of_askedName? hname, ih hnames]

/-- An ignored folder can be told by what the patterns ask for. -/
theorem infix_iff_asked (hnames : names ∈ ignoredFolders) :
    names <:+: texts ↔ names.map some <:+: texts.map askedName? := by
  have hmap : names.map askedName? = names.map some :=
    List.map_congr_left fun name hname ↦ askedName?_of_mem hnames hname
  constructor
  · intro h
    rw [← hmap]
    exact h.map askedName?
  · rintro ⟨before, after, h⟩
    obtain ⟨front, back, rfl, hfront, -⟩ := List.map_eq_append_iff.1 h.symm
    obtain ⟨left, middle, rfl, -, hmiddle⟩ := List.map_eq_append_iff.1 hfront
    rw [eq_of_map_askedName? hmiddle]
    exact ⟨left, back, rfl⟩

theorem liesInIgnored_iff_asked :
    p.LiesInIgnored ↔
      ∃ names ∈ ignoredFolders, names.map some <:+: p.folders.map askedName? := by
  refine exists_congr fun names ↦ and_congr_right fun hnames ↦ ?_
  exact infix_iff_asked hnames

theorem isIgnored_congr (h : p.folders.map askedName? = q.folders.map askedName?) :
    p.isIgnored [] = q.isIgnored [] := by
  rw [Bool.eq_iff_iff, isIgnored_nil_iff, isIgnored_nil_iff, liesInIgnored_iff_asked, h,
    liesInIgnored_iff_asked]

def ignoredNames : List String :=
  [".build", ".git", ".swiftpm", "Pods", "DerivedData", "node_modules"]

theorem liesInIgnored_iff_name :
    p.LiesInIgnored ↔
      (∃ name ∈ p.folders, name ∈ ignoredNames) ∨ ["Carthage", "Checkouts"] <:+: p.folders := by
  constructor
  · rintro ⟨names, hnames, h⟩
    have hall : ∀ names ∈ ignoredFolders,
        (∃ name ∈ ignoredNames, names = [name]) ∨ names = ["Carthage", "Checkouts"] := by decide
    rcases hall names hnames with ⟨name, hname, rfl⟩ | rfl
    · exact .inl ⟨name, (List.singleton_infix_iff _ _).1 h, hname⟩
    · exact .inr h
  · rintro (⟨name, hmem, hname⟩ | h)
    · have hall : ∀ name ∈ ignoredNames, [name] ∈ ignoredFolders := by decide
      exact ⟨[name], hall name hname, (List.singleton_infix_iff _ _).2 hmem⟩
    · exact ⟨_, by decide, h⟩

theorem LiesInIgnored.append (h : p.LiesInIgnored) (parts : List Part) :
    (p.append parts).LiesInIgnored := by
  by_cases hparts : parts = []
  · rw [hparts, Path.append, List.append_nil]
    exact h
  · obtain ⟨names, hnames, hinfix⟩ := h
    have hroot : p.LeadsIntoIgnored :=
      ⟨names, hnames, hinfix.trans (List.dropLast_prefix _).isInfix⟩
    exact (liesInIgnored_append hparts).2 (.inl hroot)

/-- A path is ignored by default iff one of the six names stands on its way, or Carthage and right
behind it Checkouts. So other names can be exchanged for one another, the last one and the root for
any, and what lies below an ignored path is ignored. -/
theorem isIgnored_iff_names (p : Path) :
    (p.isIgnored [] = true ↔
      (∃ name ∈ p.folders, name ∈ ignoredNames) ∨ ["Carthage", "Checkouts"] <:+: p.folders) ∧
    (∀ q : Path, q.folders.map askedName? = p.folders.map askedName? →
      q.isIgnored [] = p.isIgnored []) ∧
    (p.isIgnored [] = true → ∀ parts, (p.append parts).isIgnored [] = true) := by
  refine ⟨?_, fun q h ↦ isIgnored_congr h, fun h parts ↦ ?_⟩
  · rw [isIgnored_nil_iff, liesInIgnored_iff_name]
  · rw [isIgnored_nil_iff] at h ⊢
    exact h.append parts

theorem podspecs_not_ignored :
    (ofString "/a/Podspecs/Carthage/b/Checkouts/Pods").isIgnored [] = false ∧
    ((ofString "../Pods/App").append (ofString "Sources/Package.swift").parts).isIgnored [] =
      true := by
  let p : Path := ofString "x/.builds/Carthage/.GIT/Checkouts/Package.swift"
  let q : Path := ofString "/a/Podspecs/Carthage/b/Checkouts/Pods"
  have hp : p.isIgnored [] = false := by decide +kernel
  have halike : q.isIgnored [] = p.isIgnored [] := (isIgnored_iff_names p).2.1 q (by decide +kernel)
  have hpods : (ofString "../Pods/App").isIgnored [] = true := by decide +kernel
  exact ⟨halike.trans hp, (isIgnored_iff_names _).2.2 hpods _⟩

end SwiftInventory.Path
