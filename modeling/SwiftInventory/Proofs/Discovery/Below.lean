import Mathlib.Data.List.Nodup
import SwiftInventory.Discovery
import SwiftInventory.Proofs.WrittenPath

namespace SwiftInventory

theorem Path.append_injective (root : Path) : Function.Injective root.append := by
  intro parts parts' h
  rw [Path.append, Path.append, Path.mk.injEq] at h
  exact List.append_cancel_left h.2

namespace FileTree

variable {t t' : FileTree} {root p : Path} {extra : List String} {l : Location}
  {parts : List Path.Part} {e : Entry}

def Holds (t : FileTree) (root : Path) (parts : List Path.Part) (e : Entry) : Prop :=
  ∃ l, t.locate root = .ok l ∧ t.entryAt? (l ++ parts) = some e

/-- No path below the root is too long to be looked up. -/
def WithinReach (t : FileTree) (root : Path) : Prop :=
  ∀ parts e, t.Holds root parts e → (root.append parts).isTooLong = false

theorem mem_below : (parts, e) ∈ t.below l ↔ (l ++ parts, e) ∈ t.entries := by
  rw [below, List.mem_filterMap]
  constructor
  · rintro ⟨⟨l', e'⟩, hmem, h⟩
    obtain ⟨parts', hparts, h⟩ := Option.map_eq_some_iff.1 h
    rw [List.isPrefixOf?_eq_some_iff_append_eq] at hparts
    cases h
    rwa [hparts]
  · intro hmem
    have hparts : l.isPrefixOf? (l ++ parts) = some parts :=
      List.isPrefixOf?_eq_some_iff_append_eq.2 rfl
    exact ⟨_, hmem, Option.map_eq_some_iff.2 ⟨parts, hparts, rfl⟩⟩

theorem entryAt?_of_mem (h : (l, e) ∈ t.entries) : t.entryAt? l = some e := by
  have hne : l ≠ [] := (t.entries_held _ h).1
  rw [entryAt?, if_neg (by simpa using hne)]
  exact (mem_iff_lookup t.entries_distinct).1 h

theorem mem_of_entryAt? (hne : l ≠ []) (h : t.entryAt? l = some e) : (l, e) ∈ t.entries := by
  rw [entryAt?, if_neg (by simpa using hne)] at h
  exact (mem_iff_lookup t.entries_distinct).2 h

theorem below_distinct : ((t.below l).map (·.1)).Nodup := by
  have hmap : (t.below l).map (·.1) = (t.entries.map (·.1)).filterMap l.isPrefixOf? := by
    rw [below, List.map_filterMap, List.filterMap_map]
    refine List.filterMap_congr fun entry _ ↦ ?_
    cases h : l.isPrefixOf? entry.1 <;> simp [h]
  rw [hmap]
  refine t.entries_distinct.filterMap fun l₁ l₂ parts h₁ h₂ ↦ ?_
  rw [Option.mem_def, List.isPrefixOf?_eq_some_iff_append_eq] at h₁ h₂
  exact h₁.symm.trans h₂

theorem isTooLong_of_locate (h : t.locate root = .ok l) : root.isTooLong = false := by
  rw [locate] at h
  split at h
  · cases h
  · split at h
    · cases h
    · rename_i hlong
      simpa using hlong

theorem find?_eq_some_iff : t.find? root = .ok (some e) ↔ t.Holds root [] e := by
  rw [find?, Holds]
  constructor
  · intro h
    split at h
    · rename_i l hl
      exact ⟨l, hl, by rw [List.append_nil]; exact Except.ok.inj h⟩
    · cases h
    · cases h
  · rintro ⟨l, hl, h⟩
    rw [List.append_nil] at h
    rw [hl, ← h]

theorem withinReach_iff (hl : t.locate root = .ok l) :
    t.WithinReach root ↔ ∀ entry ∈ t.below l, (root.append entry.1).isTooLong = false := by
  constructor
  · rintro h ⟨parts, e⟩ hmem
    exact h parts e ⟨l, hl, entryAt?_of_mem (mem_below.1 hmem)⟩
  · rintro h parts e ⟨l', hl', he⟩
    cases hl.symm.trans hl'
    by_cases hne : l ++ parts = []
    · -- The root folder has no entry of its own, but its path has been looked up.
      obtain ⟨rfl, rfl⟩ := List.append_eq_nil_iff.1 hne
      rw [Path.append, List.append_nil]
      exact isTooLong_of_locate hl
    · exact h (parts, e) (mem_below.2 (mem_of_entryAt? hne he))

def keptBelow (t : FileTree) (root : Path) (l : Location) (extra : List String) : List Path :=
  ((t.below l).filter fun entry ↦
    entry.2 != .folder && !(root.append entry.1).isIgnored extra).map (root.append ·.1)

theorem filesBelow_of_withinReach (hl : t.locate root = .ok l) (h : t.WithinReach root) :
    t.filesBelow root extra = .ok (t.keptBelow root l extra) := by
  simp only [filesBelow, hl]
  split
  · rename_i p e hfind
    have hlong : p.isTooLong = true :=
      List.find?_some (p := fun entry : Path × Entry ↦ entry.1.isTooLong) hfind
    obtain ⟨entry, hentry, heq⟩ := List.mem_map.1 (List.mem_of_find?_eq_some hfind)
    cases heq
    exact absurd hlong (by simpa using (withinReach_iff hl).1 h entry hentry)
  · simp only [keptBelow, List.filter_map, List.map_map]
    rfl

theorem filesBelow_of_not_withinReach (extra : List String) (hl : t.locate root = .ok l)
    (h : ¬ t.WithinReach root) : ∃ p, p.isTooLong ∧ t.filesBelow root extra = .error ⟨p⟩ := by
  rw [withinReach_iff hl] at h
  push Not at h
  obtain ⟨entry, hentry, hlong⟩ := h
  simp only [filesBelow, hl]
  split
  · rename_i p e hfind
    have hlong : p.isTooLong = true :=
      List.find?_some (p := fun entry : Path × Entry ↦ entry.1.isTooLong) hfind
    exact ⟨p, hlong, rfl⟩
  · rename_i hfind
    have hnot := List.find?_eq_none.1 hfind _ (List.mem_map_of_mem hentry)
    exact absurd (by simpa using hlong) hnot

theorem mem_keptBelow (hl : t.locate root = .ok l) :
    p ∈ t.keptBelow root l extra ↔ ∃ parts octets, t.Holds root parts (.file octets) ∧
      p = root.append parts ∧ p.isIgnored extra = false := by
  simp only [keptBelow, List.mem_map, List.mem_filter, Bool.and_eq_true, bne_iff_ne, ne_eq,
    Bool.not_eq_true']
  constructor
  · rintro ⟨⟨parts, e⟩, ⟨hmem, hfile, hkept⟩, rfl⟩
    cases e with
    | folder => exact absurd rfl hfile
    | file octets => exact ⟨parts, octets, ⟨l, hl, entryAt?_of_mem (mem_below.1 hmem)⟩, rfl, hkept⟩
  · rintro ⟨parts, octets, ⟨l', hl', he⟩, rfl, hkept⟩
    cases hl.symm.trans hl'
    have hne : l ++ parts ≠ [] := by
      intro hnil
      rw [hnil] at he
      cases he
    exact ⟨(parts, _), ⟨mem_below.2 (mem_of_entryAt? hne he), by simp, hkept⟩, rfl⟩

theorem keptBelow_nodup : (t.keptBelow root l extra).Nodup := by
  have h := (below_distinct (t := t) (l := l)).map root.append_injective
  rw [List.map_map] at h
  exact h.sublist (List.filter_sublist.map _)

structure Reordered (t t' : FileTree) : Prop where
  current : t'.current = t.current
  entries : t'.entries.Perm t.entries

theorem Reordered.entryAt? (h : t.Reordered t') (l : Location) : t'.entryAt? l = t.entryAt? l := by
  by_cases hl : l = []
  · subst hl
    rfl
  · refine Option.ext fun e ↦ ⟨fun he ↦ ?_, fun he ↦ ?_⟩
    · exact entryAt?_of_mem (h.entries.mem_iff.1 (mem_of_entryAt? hl he))
    · exact entryAt?_of_mem (h.entries.mem_iff.2 (mem_of_entryAt? hl he))

theorem Reordered.locate (h : t.Reordered t') (p : Path) : t'.locate p = t.locate p := by
  have hstep : t'.step = t.step := by
    funext l part
    rw [step, step, h.entryAt?]
  rw [FileTree.locate, FileTree.locate, hstep, start, start, h.current]

theorem Reordered.holds (h : t.Reordered t') {parts : List Path.Part} {e : Entry} :
    t'.Holds root parts e ↔ t.Holds root parts e := by
  simp only [Holds, h.locate, h.entryAt?]

theorem Reordered.keptBelow (h : t.Reordered t') :
    (t'.keptBelow root l extra).Perm (t.keptBelow root l extra) :=
  ((h.entries.filterMap _).filter _).map _

theorem Reordered.withinReach (h : t.Reordered t') : t'.WithinReach root ↔ t.WithinReach root := by
  simp only [WithinReach, h.holds]

end FileTree

end SwiftInventory
