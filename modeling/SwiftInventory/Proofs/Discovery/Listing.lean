import SwiftInventory.Proofs.Discovery.Below
import SwiftInventory.Proofs.Discovery.Ignoring
import SwiftInventory.Proofs.Scan.Builtin

namespace SwiftInventory

def Analyzer.ecosystem (a : Analyzer) : String :=
  match a.kind with
  | .manifest => Manifest.ecosystem
  | .lock => Lock.ecosystem

namespace DependencyFile

variable {p : Path} {f : DependencyFile}

/-- The tags of a file are those of the analyzer that takes it. -/
def IsTagged (f : DependencyFile) : Prop :=
  ∃ a, Registry.builtin.find? f.path = some a ∧
    Registry.builtin.get? ⟨f.ecosystem, f.parserType⟩ = some a ∧
    f.ecosystem = a.ecosystem ∧ f.parserType = a.parserType

def IsNamed (p : Path) : Prop := p.name = "Package.swift" ∨ p.name = "Package.resolved"

instance : DecidablePred IsNamed := fun _ ↦ inferInstanceAs (Decidable (_ ∨ _))

theorem path_of_ofPath? (h : ofPath? p = some f) : f.path = p := by
  rw [ofPath?] at h
  split at h
  · cases h
    rfl
  · split at h
    · cases h
      rfl
    · cases h

theorem ofPath?_isSome : (ofPath? p).isSome = true ↔ IsNamed p := by
  rw [ofPath?, IsNamed]
  by_cases hm : p.name = "Package.swift"
  · simp [hm]
  · by_cases hl : p.name = "Package.resolved" <;> simp [hm, hl]

theorem isTagged_of_ofPath? (h : ofPath? p = some f) : f.IsTagged := by
  rw [ofPath?] at h
  split at h
  · rename_i hm
    have hm : p.name = Manifest.fileName := eq_of_beq hm
    have hfind : Registry.builtin.find? p = some .manifest := by rw [builtin_find?, if_pos hm]
    cases h
    exact ⟨.manifest, hfind, rfl, rfl, rfl⟩
  · rename_i hm
    have hm : p.name ≠ Manifest.fileName := fun h ↦ hm (beq_of_eq h)
    split at h
    · rename_i hl
      have hl : p.name = Lock.fileName := eq_of_beq hl
      have hfind : Registry.builtin.find? p = some .lock := by
        rw [builtin_find?, if_neg hm, if_pos hl]
      cases h
      exact ⟨.lock, hfind, rfl, rfl, rfl⟩
    · cases h

def isNotAfter (a b : DependencyFile) : Bool := !(b.path.toString < a.path.toString)

theorem isNotAfter_iff {a b : DependencyFile} :
    a.isNotAfter b = true ↔ a.path.toString ≤ b.path.toString := by
  rw [isNotAfter, Bool.not_eq_true', decide_eq_false_iff_not, String.not_lt]

theorem isNotAfter_trans (a b c : DependencyFile) (hab : a.isNotAfter b) (hbc : b.isNotAfter c) :
    a.isNotAfter c :=
  isNotAfter_iff.2 (String.le_trans (isNotAfter_iff.1 hab) (isNotAfter_iff.1 hbc))

theorem isNotAfter_total (a b : DependencyFile) : a.isNotAfter b || b.isNotAfter a := by
  rw [Bool.or_eq_true, isNotAfter_iff, isNotAfter_iff]
  exact String.le_total _ _

def sorted (paths : List Path) : List DependencyFile :=
  (paths.filterMap ofPath?).mergeSort isNotAfter

variable {paths paths' : List Path}

theorem mem_sorted : f ∈ sorted paths ↔ ∃ p ∈ paths, ofPath? p = some f := by
  rw [sorted, List.mem_mergeSort, List.mem_filterMap]

theorem path_mem_sorted : p ∈ (sorted paths).map (·.path) ↔ p ∈ paths ∧ IsNamed p := by
  rw [List.mem_map, ← ofPath?_isSome, Option.isSome_iff_exists]
  constructor
  · rintro ⟨f, hf, rfl⟩
    obtain ⟨p, hp, h⟩ := mem_sorted.1 hf
    rw [path_of_ofPath? h]
    exact ⟨hp, f, h⟩
  · rintro ⟨hp, f, h⟩
    exact ⟨f, mem_sorted.2 ⟨p, hp, h⟩, path_of_ofPath? h⟩

theorem paths_sorted_singleton :
    (sorted [p]).map (·.path) = if IsNamed p then [p] else [] := by
  rw [sorted]
  cases h : ofPath? p with
  | none =>
    have hname : ¬ IsNamed p := by simp [← ofPath?_isSome, h]
    rw [List.filterMap_cons_none h, List.filterMap_nil, List.mergeSort_nil, if_neg hname]
    rfl
  | some f =>
    have hname : IsNamed p := by simp [← ofPath?_isSome, h]
    rw [List.filterMap_cons_some h, List.filterMap_nil, List.mergeSort_singleton, if_pos hname,
      ← path_of_ofPath? h]
    rfl

theorem isTagged_of_mem_sorted (h : f ∈ sorted paths) : f.IsTagged := by
  obtain ⟨p, -, hp⟩ := mem_sorted.1 h
  exact isTagged_of_ofPath? hp

theorem sorted_increasing (h : paths.Nodup) :
    (sorted paths).Pairwise fun a b ↦ a.path.toString < b.path.toString := by
  have hfound : (paths.filterMap ofPath?).Nodup := by
    refine h.filterMap fun p₁ p₂ f h₁ h₂ ↦ ?_
    rw [← path_of_ofPath? h₁, ← path_of_ofPath? h₂]
  have hle := List.pairwise_mergeSort isNotAfter_trans isNotAfter_total (paths.filterMap ofPath?)
  have hne : (sorted paths).Nodup := (List.mergeSort_perm _ _).nodup_iff.2 hfound
  refine (hle.and hne).imp_of_mem fun {a b} ha hb hab ↦ ?_
  obtain ⟨p, -, ha⟩ := mem_sorted.1 ha
  obtain ⟨q, -, hb⟩ := mem_sorted.1 hb
  have hpath : a.path ≠ b.path := by
    intro hpath
    rw [path_of_ofPath? ha, path_of_ofPath? hb] at hpath
    subst hpath
    exact hab.2 (Option.some.inj (ha.symm.trans hb))
  refine String.not_le.1 fun hba ↦ hpath (Path.toString_injective ?_)
  exact String.le_antisymm (isNotAfter_iff.1 hab.1) hba

theorem sorted_eq_of_perm (h : paths.Nodup) (hperm : paths'.Perm paths) :
    sorted paths' = sorted paths := by
  have hsorted : (sorted paths').Perm (sorted paths) :=
    ((List.mergeSort_perm _ _).trans (hperm.filterMap _)).trans (List.mergeSort_perm _ _).symm
  refine hsorted.eq_of_pairwise (fun a b _ _ hab hba ↦ ?_)
    (sorted_increasing (hperm.nodup_iff.2 h)) (sorted_increasing h)
  exact absurd hba (String.lt_asymm hab)

end DependencyFile

namespace FileTree

variable {t t' : FileTree} {root p : Path} {extra : List String} {l : Location}

theorem isFolder_iff : t.isFolder root = true ↔ t.find? root = .ok (some .folder) := by
  rw [find?_eq_some_iff, isFolder, Holds]
  constructor
  · intro h
    split at h
    · rename_i l hl
      exact ⟨l, hl, by rw [List.append_nil]; exact eq_of_beq h⟩
    · cases h
  · rintro ⟨l, hl, h⟩
    rw [List.append_nil] at h
    rw [hl]
    exact beq_of_eq h

theorem require_of_find? {e : Entry} (h : t.find? root = .ok (some e)) :
    t.require root = .ok () := by
  rw [require, exists?, h]
  rfl

theorem dependencyFiles_of_folder (h : t.find? root = .ok (some .folder)) :
    t.dependencyFiles root extra =
      ((t.filesBelow root extra).map DependencyFile.sorted).mapError .tooLong := by
  rw [dependencyFiles, require_of_find? h, listing, if_pos (isFolder_iff.2 h)]
  cases t.filesBelow root extra <;> rfl

theorem dependencyFiles_of_file {octets : List UInt8}
    (h : t.find? root = .ok (some (.file octets))) :
    t.dependencyFiles root extra = .ok (DependencyFile.sorted [root]) := by
  have hfolder : ¬ t.isFolder root = true := by
    rw [isFolder_iff, h]
    exact fun h ↦ by cases h
  rw [dependencyFiles, require_of_find? h, listing, if_neg hfolder]
  rfl

/-- What a search gives: the paths of the files below the root that are named like a dependency
file and not ignored, each once and in the order of their written forms. -/
structure Lists (t : FileTree) (root : Path) (extra : List String) (files : List DependencyFile) :
    Prop where
  increasing : files.Pairwise fun a b ↦ a.path.toString < b.path.toString
  exact : ∀ p, p ∈ files.map (·.path) ↔
    (∃ parts octets, t.Holds root parts (.file octets) ∧ p = root.append parts) ∧
      DependencyFile.IsNamed p ∧ p.isIgnored extra = false
  tagged : ∀ f ∈ files, f.IsTagged

theorem lists_sorted_keptBelow (hl : t.locate root = .ok l) :
    t.Lists root extra (DependencyFile.sorted (t.keptBelow root l extra)) where
  increasing := DependencyFile.sorted_increasing keptBelow_nodup
  exact p := by
    rw [DependencyFile.path_mem_sorted, mem_keptBelow hl]
    constructor
    · rintro ⟨⟨parts, octets, hfile, rfl, hkept⟩, hname⟩
      exact ⟨⟨parts, octets, hfile, rfl⟩, hname, hkept⟩
    · rintro ⟨⟨parts, octets, hfile, rfl⟩, hname, hkept⟩
      exact ⟨⟨parts, octets, hfile, rfl, hkept⟩, hname⟩
  tagged _ := DependencyFile.isTagged_of_mem_sorted

theorem dependencyFiles_of_withinReach (hl : t.locate root = .ok l)
    (h : t.find? root = .ok (some .folder)) (hreach : t.WithinReach root) :
    t.dependencyFiles root extra = .ok (DependencyFile.sorted (t.keptBelow root l extra)) := by
  rw [dependencyFiles_of_folder h, filesBelow_of_withinReach hl hreach]
  rfl

/-- A search below a folder gives exactly the files that count, in whatever order the tree lists
its entries, as long as no path below the folder is too long to be looked up. A file in place of
the folder stands for itself. -/
theorem dependencyFiles_exact (t : FileTree) (root : Path) (extra : List String) :
    (t.find? root = .ok (some .folder) →
      (t.WithinReach root → ∃ files, t.dependencyFiles root extra = .ok files ∧
        t.Lists root extra files ∧
        ∀ t', t.Reordered t' → t'.dependencyFiles root extra = .ok files) ∧
      (¬ t.WithinReach root → ∃ p, p.isTooLong = true ∧
        t.dependencyFiles root extra = .error (.tooLong ⟨p⟩))) ∧
    ∀ octets, t.find? root = .ok (some (.file octets)) →
      ∃ files, t.dependencyFiles root extra = .ok files ∧ (∀ f ∈ files, f.IsTagged) ∧
        files.map (·.path) = if DependencyFile.IsNamed root then [root] else [] := by
  refine ⟨fun hroot ↦ ?_, fun octets hroot ↦ ?_⟩
  · obtain ⟨l, hl, hfolder⟩ := find?_eq_some_iff.1 hroot
    refine ⟨fun hreach ↦ ?_, fun hreach ↦ ?_⟩
    · refine ⟨_, dependencyFiles_of_withinReach hl hroot hreach, lists_sorted_keptBelow hl,
        fun t' h ↦ ?_⟩
      -- Another order of the entries changes neither the look-ups nor, once sorted, the answer.
      have hl' : t'.locate root = .ok l := (h.locate root).trans hl
      have hroot' : t'.find? root = .ok (some .folder) :=
        find?_eq_some_iff.2 (h.holds.2 (find?_eq_some_iff.1 hroot))
      rw [dependencyFiles_of_withinReach hl' hroot' (h.withinReach.2 hreach),
        DependencyFile.sorted_eq_of_perm keptBelow_nodup h.keptBelow]
    · obtain ⟨p, hlong, hp⟩ := filesBelow_of_not_withinReach extra hl hreach
      refine ⟨p, hlong, ?_⟩
      rw [dependencyFiles_of_folder hroot, hp]
      rfl
  · exact ⟨_, dependencyFiles_of_file hroot, fun _ ↦ DependencyFile.isTagged_of_mem_sorted,
      DependencyFile.paths_sorted_singleton⟩

end FileTree

namespace Winding

def app : Path.Part := ⟨"App", by decide⟩
def back : Path.Part := ⟨"..", by decide⟩
def manifest : Path.Part := ⟨"Package.swift", by decide⟩
def lock : Path.Part := ⟨"Package.resolved", by decide⟩

def tree : FileTree where
  entries := [([app], .folder), ([app, manifest], .folder), ([app, manifest, lock], .file [])]
  entries_distinct := by decide
  entries_held := by decide

def turns (n : Nat) : List Path.Part := (List.replicate n [app, back]).flatten

def root (n : Nat) : Path := ⟨.relative, turns n ++ [app, back]⟩

def file (n : Nat) : Path := (root n).append [app, manifest, lock]

variable {n : Nat} {part : Path.Part} {parts : List Path.Part}

theorem turns_succ (n : Nat) : turns (n + 1) = app :: back :: turns n := rfl

theorem mem_turns (h : part ∈ turns n) : part = app ∨ part = back := by
  have hboth : ¬ n = 0 ∧ (part = app ∨ part = back) := by simpa [turns] using h
  exact hboth.2

theorem mem_root (h : part ∈ (root n).parts) : part = app ∨ part = back := by
  rcases List.mem_append.1 h with h | h
  · exact mem_turns h
  · simpa using h

theorem size_partsText_cons (part : Path.Part) (h : parts ≠ []) :
    (Path.partsText (part :: parts)).utf8ByteSize =
      part.text.utf8ByteSize + 1 + (Path.partsText parts).utf8ByteSize := by
  have hne : parts.map Path.Part.text ≠ [] := by simpa using h
  rw [Path.partsText, List.map_cons, String.intercalate_cons_of_ne_nil hne,
    String.utf8ByteSize_append, String.utf8ByteSize_append]
  rfl

theorem size_partsText_turns (n : Nat) (h : parts ≠ []) :
    (Path.partsText (turns n ++ parts)).utf8ByteSize =
      7 * n + (Path.partsText parts).utf8ByteSize := by
  induction n with
  | zero => simp [turns]
  | succ n ih =>
    rw [turns_succ, List.cons_append, List.cons_append, size_partsText_cons _ (by simp),
      size_partsText_cons _ (by simp [h]), ih]
    have happ : app.text.utf8ByteSize = 3 := by decide
    have hback : back.text.utf8ByteSize = 2 := by decide
    omega

theorem size_turns (n : Nat) (h : parts ≠ []) :
    (Path.toString ⟨.relative, turns n ++ parts⟩).utf8ByteSize =
      7 * n + (Path.partsText parts).utf8ByteSize := by
  rw [Path.toString, if_neg (by simp [h]), String.utf8ByteSize_append, size_partsText_turns n h]
  exact Nat.zero_add _

theorem size_root (n : Nat) : (root n).toString.utf8ByteSize = 7 * n + 6 :=
  size_turns n (by simp)

theorem size_file (n : Nat) : (file n).toString.utf8ByteSize = 7 * n + 41 := by
  have hparts : (file n).parts = turns n ++ [app, back, app, manifest, lock] :=
    List.append_assoc _ _ _
  have hfile : file n = ⟨.relative, (file n).parts⟩ := rfl
  rw [hfile, hparts]
  exact size_turns n (by simp)

theorem steps_turns (n : Nat) : (turns n).foldlM tree.step [] = .ok [] := by
  induction n with
  | zero => rfl
  | succ n ih =>
    have hin : tree.step [] app = .ok [app] := by decide
    have hback : tree.step [app] back = .ok [] := by decide
    rw [turns_succ, List.foldlM_cons, hin]
    change (tree.step [app] back >>= fun l ↦ (turns n).foldlM tree.step l) = .ok []
    rw [hback]
    exact ih

theorem locate_root (h : n ≤ 584) : tree.locate (root n) = .ok [] := by
  have hnull : (root n).holdsNull = false := by
    refine Path.not_holdsNull fun word hword ↦ ?_
    rw [Path.words, if_neg (by simp [root])] at hword
    obtain ⟨part, hpart, rfl⟩ := List.mem_map.1 hword
    rcases mem_root hpart with rfl | rfl <;> decide
  have hshort : (root n).isTooLong = false := by
    rw [Path.isTooLong, size_root, decide_eq_false_iff_not]
    omega
  rw [FileTree.locate, hnull, hshort]
  change (turns n ++ [app, back]).foldlM tree.step [] = .ok []
  rw [List.foldlM_append, steps_turns]
  rfl

theorem find?_root (h : n ≤ 584) : tree.find? (root n) = .ok (some .folder) :=
  FileTree.find?_eq_some_iff.2 ⟨[], locate_root h, rfl⟩

theorem holds_file (h : n ≤ 584) : tree.Holds (root n) [app, manifest, lock] (.file []) :=
  ⟨[], locate_root h, by decide⟩

theorem name_file (n : Nat) : (file n).name = "Package.resolved" := by
  have hlast : (file n).parts.getLast? = some lock := by
    rw [file, Path.append, List.getLast?_append]
    rfl
  rw [Path.name, hlast]
  rfl

theorem mem_file (h : part ∈ (file n).parts) : part ∈ [app, back, manifest, lock] := by
  rcases List.mem_append.1 h with h | h
  · rcases mem_root h with rfl | rfl <;> simp
  · rcases List.mem_cons.1 h with rfl | h
    · simp
    · exact List.mem_of_mem_tail (List.mem_of_mem_tail h)

theorem file_kept (n : Nat) : (file n).isIgnored [] = false := by
  rw [← Bool.not_eq_true, Path.isIgnored_nil_iff]
  rintro ⟨names, hmem, hin⟩
  obtain ⟨name, hname⟩ := List.exists_mem_of_ne_nil names (Path.ne_nil_of_mem hmem)
  obtain ⟨part, hpart, rfl⟩ := List.mem_map.1 (List.dropLast_subset _ (hin.subset hname))
  have hother : (ignoredFolders.all fun names ↦ [app, back, manifest, lock].all fun part ↦
    !names.contains part.text) = true := by decide
  have hpart := List.all_eq_true.1 (List.all_eq_true.1 hother names hmem) part (mem_file hpart)
  simp [hname] at hpart

theorem root_withinReach : tree.WithinReach (root 0) :=
  (FileTree.withinReach_iff (locate_root (Nat.zero_le _))).2 (by decide)

theorem winding_root_listed :
    tree.find? (root 0) = .ok (some .folder) ∧ tree.WithinReach (root 0) ∧
      ∃ files, tree.dependencyFiles (root 0) [] = .ok files ∧ file 0 ∈ files.map (·.path) := by
  have hroot := find?_root (Nat.zero_le 584)
  obtain ⟨files, hfiles, hlists, -⟩ :=
    ((FileTree.dependencyFiles_exact tree (root 0) []).1 hroot).1 root_withinReach
  refine ⟨hroot, root_withinReach, files, hfiles, ?_⟩
  rw [hlists.exact]
  exact ⟨⟨_, [], holds_file (Nat.zero_le _), rfl⟩, .inr (name_file 0), file_kept 0⟩

/-- A search below a folder can end without an answer: here the file in it has a path of 4122
octets. -/
theorem winding_root_not_listed :
    tree.find? (root 583) = .ok (some .folder) ∧
      tree.Holds (root 583) [app, manifest, lock] (.file []) ∧
      DependencyFile.IsNamed (file 583) ∧ (file 583).isIgnored [] = false ∧
      ∀ files, tree.dependencyFiles (root 583) [] ≠ .ok files := by
  have hroot := find?_root (n := 583) (by decide)
  have hfile := holds_file (n := 583) (by decide)
  refine ⟨hroot, hfile, .inr (name_file 583), file_kept 583, fun files hfiles ↦ ?_⟩
  have hreach : ¬ tree.WithinReach (root 583) := by
    intro hreach
    have hshort : (file 583).isTooLong = false := hreach _ _ hfile
    rw [Path.isTooLong, size_file, decide_eq_false_iff_not] at hshort
    exact hshort (by decide)
  obtain ⟨p, -, hp⟩ :=
    FileTree.filesBelow_of_not_withinReach [] (locate_root (by decide)) hreach
  rw [FileTree.dependencyFiles_of_folder hroot, hp] at hfiles
  cases hfiles

end Winding

end SwiftInventory
