import SwiftInventory.Proofs.Discovery.Listing

namespace SwiftInventory

theorem Text.infix_append_cases {α : Type} {names before after : List α}
    (h : names <:+: before ++ after) :
    names <:+: before ∨ names <:+: after ∨
      ∃ left right, left ≠ [] ∧ right ≠ [] ∧ names = left ++ right ∧
        left <:+ before ∧ right <+: after := by
  obtain ⟨x, y, h⟩ := h
  rw [List.append_assoc] at h
  rcases List.append_eq_append_iff.1 h with ⟨c, rfl, hc⟩ | ⟨c, rfl, rfl⟩
  · rcases List.append_eq_append_iff.1 hc with ⟨d, rfl, -⟩ | ⟨d, rfl, rfl⟩
    · exact .inl ⟨x, d, List.append_assoc _ _ _⟩
    · by_cases hleft : c = []
      · subst hleft
        exact .inr (.inl (List.prefix_append _ _).isInfix)
      · by_cases hright : d = []
        · subst hright
          rw [List.append_nil]
          exact .inl (List.suffix_append _ _).isInfix
        · exact .inr (.inr ⟨c, d, hleft, hright, rfl, List.suffix_append _ _,
            List.prefix_append _ _⟩)
  · exact .inr (.inl (List.append_assoc _ _ _ ▸ List.infix_append c names y))

namespace Path

variable {root p : Path} {parts : List Part}

def ofParts (parts : List Part) : Path := ⟨.relative, parts⟩

/-- A root that is, or lies in, an ignored folder. -/
def LeadsIntoIgnored (root : Path) : Prop := ∃ names ∈ ignoredFolders, names <:+: root.texts

instance : DecidablePred LeadsIntoIgnored := fun _ ↦
  inferInstanceAs (Decidable (∃ names ∈ ignoredFolders, names <:+: _))

def LeadsIntoCarthage (root : Path) : Prop := root.texts.getLast? = some "Carthage"

instance : DecidablePred LeadsIntoCarthage := fun _ ↦ inferInstanceAs (Decidable (_ = _))

def LiesInCheckouts (p : Path) : Prop := p.texts.dropLast.head? = some "Checkouts"

instance : DecidablePred LiesInCheckouts := fun _ ↦ inferInstanceAs (Decidable (_ = _))

theorem texts_append (root : Path) (parts : List Part) :
    (root.append parts).texts = root.texts ++ (ofParts parts).texts := List.map_append

theorem name_append (h : parts ≠ []) : (root.append parts).name = (ofParts parts).name := by
  have hlast : (root.parts ++ parts).getLast? = parts.getLast? := by
    rw [List.getLast?_append, Option.or_of_isSome (by simpa using h)]
  rw [name, name, append, ofParts]
  dsimp only
  rw [hlast]

theorem split_of_mem {names left right : List String} (h : names ∈ ignoredFolders)
    (hnames : names = left ++ right) (hleft : left ≠ []) (hright : right ≠ []) :
    left = ["Carthage"] ∧ right = ["Checkouts"] := by
  have hall : ∀ names ∈ ignoredFolders, names.length = 1 ∨ names = ["Carthage", "Checkouts"] := by
    decide
  obtain ⟨a, left, rfl⟩ := List.exists_cons_of_ne_nil hleft
  obtain ⟨b, right, rfl⟩ := List.exists_cons_of_ne_nil hright
  rcases hall names h with hlen | htwo
  · rw [hnames, List.length_append, List.length_cons, List.length_cons] at hlen
    omega
  · rw [htwo] at hnames
    cases left with
    | nil =>
      cases hnames
      exact ⟨rfl, rfl⟩
    | cons c left =>
      have hlen := congrArg List.length hnames
      simp at hlen

/-- A path is ignored for the folders of its root, for its own folders, or for one that ends the
root together with one that follows. -/
theorem liesInIgnored_append (h : parts ≠ []) :
    (root.append parts).LiesInIgnored ↔ root.LeadsIntoIgnored ∨
      (ofParts parts).LiesInIgnored ∨
        root.LeadsIntoCarthage ∧ (ofParts parts).LiesInCheckouts := by
  have hne : (ofParts parts).texts ≠ [] := by simpa [texts, ofParts] using h
  have htexts : (root.append parts).texts.dropLast = root.texts ++ (ofParts parts).texts.dropLast := by
    rw [texts_append, List.dropLast_append_of_ne_nil hne]
  rw [LiesInIgnored, htexts]
  constructor
  · rintro ⟨names, hmem, hinfix⟩
    rcases Text.infix_append_cases hinfix with h | h | ⟨left, right, hleft, hright, hsplit, hl, hr⟩
    · exact .inl ⟨names, hmem, h⟩
    · exact .inr (.inl ⟨names, hmem, h⟩)
    · obtain ⟨rfl, rfl⟩ := split_of_mem hmem hsplit hleft hright
      obtain ⟨before, hbefore⟩ := hl
      obtain ⟨after, hafter⟩ := hr
      refine .inr (.inr ⟨?_, ?_⟩)
      · rw [LeadsIntoCarthage, ← hbefore, List.getLast?_concat]
      · rw [LiesInCheckouts, ← hafter]
        rfl
  · rintro (⟨names, hmem, h⟩ | ⟨names, hmem, h⟩ | ⟨hleft, hright⟩)
    · exact ⟨names, hmem, List.infix_append_of_infix_left h⟩
    · exact ⟨names, hmem, List.infix_append_of_infix_right h⟩
    · obtain ⟨before, hbefore⟩ := List.getLast?_eq_some_iff.1 hleft
      obtain ⟨after, hafter⟩ := List.head?_eq_some_iff.1 hright
      refine ⟨["Carthage", "Checkouts"], by decide, before, after, ?_⟩
      rw [hbefore, hafter]
      simp

end Path

namespace FileTree

variable {t t' : FileTree} {root root' : Path} {parts : List Path.Part}

structure SameBelow (t : FileTree) (root : Path) (t' : FileTree) (root' : Path) : Prop where
  folder : t.find? root = .ok (some .folder)
  folder' : t'.find? root' = .ok (some .folder)
  same : ∀ parts e, t.Holds root parts e ↔ t'.Holds root' parts e

/-- The dependency files that lie in no ignored folder inside the project. -/
def HoldsCounted (t : FileTree) (root : Path) (parts : List Path.Part) : Prop :=
  (∃ octets, t.Holds root parts (.file octets)) ∧
    DependencyFile.IsNamed (.ofParts parts) ∧ ¬ (Path.ofParts parts).LiesInIgnored

theorem SameBelow.holdsCounted (h : t.SameBelow root t' root') :
    t.HoldsCounted root parts ↔ t'.HoldsCounted root' parts := by
  simp only [HoldsCounted, h.same]

theorem parts_ne_nil_of_holds (hroot : t.find? root = .ok (some .folder)) {octets : List UInt8}
    (h : t.Holds root parts (.file octets)) : parts ≠ [] := by
  rintro rfl
  rw [find?_eq_some_iff.2 h] at hroot
  cases hroot

/-- What is found below a root, by the parts that lead there from the root. -/
theorem Lists.append_mem_iff {files : List DependencyFile} (hfiles : t.Lists root [] files)
    (hroot : t.find? root = .ok (some .folder)) :
    root.append parts ∈ files.map (·.path) ↔
      t.HoldsCounted root parts ∧ ¬ root.LeadsIntoIgnored ∧
        ¬ (root.LeadsIntoCarthage ∧ (Path.ofParts parts).LiesInCheckouts) := by
  rw [hfiles.exact, HoldsCounted]
  have hkept {octets : List UInt8} (h : t.Holds root parts (.file octets)) :
      (root.append parts).isIgnored [] = false ↔ ¬ root.LeadsIntoIgnored ∧
        ¬ (Path.ofParts parts).LiesInIgnored ∧
          ¬ (root.LeadsIntoCarthage ∧ (Path.ofParts parts).LiesInCheckouts) := by
    rw [← Bool.not_eq_true, Path.isIgnored_nil_iff,
      Path.liesInIgnored_append (parts_ne_nil_of_holds hroot h), not_or, not_or]
  have hname {octets : List UInt8} (h : t.Holds root parts (.file octets)) :
      DependencyFile.IsNamed (root.append parts) ↔ DependencyFile.IsNamed (.ofParts parts) := by
    rw [DependencyFile.IsNamed, Path.name_append (parts_ne_nil_of_holds hroot h),
      ← DependencyFile.IsNamed]
  constructor
  · rintro ⟨⟨parts', octets, hfile, hparts⟩, hnamed, hpath⟩
    cases root.append_injective hparts
    obtain ⟨hinto, hin, hseam⟩ := (hkept hfile).1 hpath
    exact ⟨⟨⟨octets, hfile⟩, (hname hfile).1 hnamed, hin⟩, hinto, hseam⟩
  · rintro ⟨⟨⟨octets, hfile⟩, hnamed, hin⟩, hinto, hseam⟩
    exact ⟨⟨parts, octets, hfile, rfl⟩, (hname hfile).2 hnamed, (hkept hfile).2 ⟨hinto, hin, hseam⟩⟩

theorem Lists.exists_append {files : List DependencyFile} (hfiles : t.Lists root [] files) :
    ∀ p ∈ files.map (·.path), ∃ parts, p = root.append parts := by
  intro p hp
  obtain ⟨⟨parts, -, -, h⟩, -⟩ := (hfiles.exact p).1 hp
  exact ⟨parts, h⟩

theorem lists_of_withinReach (hroot : t.find? root = .ok (some .folder))
    (hreach : t.WithinReach root) :
    ∃ files, t.dependencyFiles root [] = .ok files ∧ t.Lists root [] files := by
  obtain ⟨l, hl, -⟩ := find?_eq_some_iff.1 hroot
  exact ⟨_, dependencyFiles_of_withinReach hl hroot hreach, lists_sorted_keptBelow hl⟩

/-- Two searches in the same folder find the same files below their roots, unless one root leads
into an ignored folder and the other does not, or only one of them into a folder "Carthage". In
an ignored folder nothing is found; elsewhere it is the files that no folder of the project makes
ignored. -/
theorem dependencyFiles_placement (h : t.SameBelow root t' root') (hreach : t.WithinReach root)
    (hreach' : t'.WithinReach root') :
    ∃ files files', t.dependencyFiles root [] = .ok files ∧
      t'.dependencyFiles root' [] = .ok files' ∧
      (∀ p ∈ files.map (·.path), ∃ parts, p = root.append parts) ∧
      (∀ p ∈ files'.map (·.path), ∃ parts, p = root'.append parts) ∧
      ((root.LeadsIntoIgnored ↔ root'.LeadsIntoIgnored) →
        (root.LeadsIntoCarthage ↔ root'.LeadsIntoCarthage) →
        ∀ parts, root.append parts ∈ files.map (·.path) ↔
          root'.append parts ∈ files'.map (·.path)) ∧
      (¬ root.LeadsIntoIgnored → ¬ root.LeadsIntoCarthage →
        ∀ parts, root.append parts ∈ files.map (·.path) ↔ t.HoldsCounted root parts) ∧
      (root.LeadsIntoIgnored → files = []) := by
  obtain ⟨files, hok, hfiles⟩ := lists_of_withinReach h.folder hreach
  obtain ⟨files', hok', hfiles'⟩ := lists_of_withinReach h.folder' hreach'
  refine ⟨files, files', hok, hok', hfiles.exists_append, hfiles'.exists_append, ?_, ?_, ?_⟩
  · intro hinto hseam parts
    rw [hfiles.append_mem_iff h.folder, hfiles'.append_mem_iff h.folder', h.holdsCounted, hinto,
      hseam]
  · intro hinto hseam parts
    rw [hfiles.append_mem_iff h.folder]
    exact and_iff_left ⟨hinto, fun h ↦ hseam h.1⟩
  · intro hinto
    rw [← List.map_eq_nil_iff, List.eq_nil_iff_forall_not_mem]
    intro p hp
    obtain ⟨parts, rfl⟩ := hfiles.exists_append p hp
    exact ((hfiles.append_mem_iff h.folder).1 hp).2.1 hinto

theorem holds_iff_mem_below {l : Location} (hl : t.locate root = .ok l) (hne : l ≠ []) {e : Entry} :
    t.Holds root parts e ↔ (parts, e) ∈ t.below l := by
  rw [mem_below]
  constructor
  · rintro ⟨l', hl', h⟩
    cases hl.symm.trans hl'
    exact mem_of_entryAt? (by simp [hne]) h
  · exact fun h ↦ ⟨l, hl, entryAt?_of_mem h⟩

theorem SameBelow.of_below {l l' : Location} (hl : t.locate root = .ok l) (hne : l ≠ [])
    (hl' : t'.locate root' = .ok l') (hne' : l' ≠ []) (hfolder : t.entryAt? l = some .folder)
    (hsame : t'.below l' = t.below l) : t.SameBelow root t' root' := by
  have hsame : ∀ parts e, t.Holds root parts e ↔ t'.Holds root' parts e := fun parts e ↦ by
    rw [holds_iff_mem_below hl hne, holds_iff_mem_below hl' hne', hsame]
  have hroot : t.Holds root [] .folder := ⟨l, hl, by rwa [List.append_nil]⟩
  exact ⟨find?_eq_some_iff.2 hroot, find?_eq_some_iff.2 ((hsame _ _).1 hroot), hsame⟩

end FileTree

namespace Copies

open Winding (app manifest)

def library : Path.Part := ⟨"Lib", by decide⟩
def pods : Path.Part := ⟨"Pods", by decide⟩

def tree : FileTree where
  entries := [([app], .folder), ([app, manifest], .file []), ([library], .folder),
    ([library, app], .folder), ([library, app, manifest], .file []), ([pods], .folder),
    ([pods, app], .folder), ([pods, app, manifest], .file [])]
  entries_distinct := by decide
  entries_held := by decide

def root : Path := .ofParts [app]
def libraryRoot : Path := .ofParts [library, app]
def podsRoot : Path := .ofParts [pods, app]

theorem locate_root : tree.locate root = .ok [app] := by decide
theorem locate_libraryRoot : tree.locate libraryRoot = .ok [library, app] := by decide
theorem locate_podsRoot : tree.locate podsRoot = .ok [pods, app] := by decide

theorem root_withinReach : tree.WithinReach root :=
  (FileTree.withinReach_iff locate_root).2 (by decide)

theorem libraryRoot_withinReach : tree.WithinReach libraryRoot :=
  (FileTree.withinReach_iff locate_libraryRoot).2 (by decide)

theorem podsRoot_withinReach : tree.WithinReach podsRoot :=
  (FileTree.withinReach_iff locate_podsRoot).2 (by decide)

theorem sameBelow_libraryRoot : tree.SameBelow root tree libraryRoot :=
  .of_below locate_root (by decide) locate_libraryRoot (by decide) (by decide) (by decide)

theorem sameBelow_podsRoot : tree.SameBelow root tree podsRoot :=
  .of_below locate_root (by decide) locate_podsRoot (by decide) (by decide) (by decide)

theorem holdsCounted : tree.HoldsCounted root [manifest] :=
  ⟨⟨[], _, locate_root, by decide⟩, by decide, by decide⟩

theorem found_in_library :
    tree.SameBelow root tree libraryRoot ∧ tree.WithinReach root ∧ tree.WithinReach libraryRoot ∧
      ∃ files, tree.dependencyFiles libraryRoot [] = .ok files ∧
        libraryRoot.append [manifest] ∈ files.map (·.path) := by
  obtain ⟨files, files', -, hok', -, -, hsame, hfound, -⟩ := FileTree.dependencyFiles_placement
    sameBelow_libraryRoot root_withinReach libraryRoot_withinReach
  have hinto : ¬ root.LeadsIntoIgnored := by decide
  have hinto' : ¬ libraryRoot.LeadsIntoIgnored := by decide
  have hseam : ¬ root.LeadsIntoCarthage := by decide
  have hseam' : ¬ libraryRoot.LeadsIntoCarthage := by decide
  refine ⟨sameBelow_libraryRoot, root_withinReach, libraryRoot_withinReach, files', hok', ?_⟩
  rw [← hsame (iff_of_false hinto hinto') (iff_of_false hseam hseam')]
  exact (hfound hinto hseam _).2 holdsCounted

theorem not_found_in_pods :
    tree.SameBelow root tree podsRoot ∧ tree.WithinReach root ∧ tree.WithinReach podsRoot ∧
      (∃ files, tree.dependencyFiles root [] = .ok files ∧
        root.append [manifest] ∈ files.map (·.path)) ∧
      ∃ files, tree.dependencyFiles podsRoot [] = .ok files ∧
        podsRoot.append [manifest] ∉ files.map (·.path) := by
  obtain ⟨files, hok, hfiles⟩ :=
    FileTree.lists_of_withinReach sameBelow_podsRoot.folder root_withinReach
  obtain ⟨files', hok', hfiles'⟩ :=
    FileTree.lists_of_withinReach sameBelow_podsRoot.folder' podsRoot_withinReach
  refine ⟨sameBelow_podsRoot, root_withinReach, podsRoot_withinReach, ⟨files, hok, ?_⟩, files',
    hok', ?_⟩
  · rw [hfiles.append_mem_iff sameBelow_podsRoot.folder]
    exact ⟨holdsCounted, by decide, by decide⟩
  · rw [hfiles'.append_mem_iff sameBelow_podsRoot.folder']
    exact fun h ↦ absurd h.2.1 (by decide)

end Copies

end SwiftInventory
