import Mathlib.Data.List.Basic
import Mathlib.Data.List.Nodup
import SwiftInventory.Inventory

namespace SwiftInventory

namespace RecordStore

variable (s : RecordStore) (rs : List Record)

theorem get_addAll_of_lt {id : RecordId} (h : id < s.size) : (s.addAll rs).get id = s.get id := by
  have h' : id < s.records.size := h
  simp only [get, addAll, Array.getD_eq_getD_getElem?, Array.getElem?_append_left h']

theorem get_addAll_size_add {i : Nat} (h : i < rs.length) :
    (s.addAll rs).get (s.size + i) = rs[i] := by
  simp [get, addAll, size, h]

theorem map_get_addAll : (List.range' s.size rs.length).map (s.addAll rs).get = rs := by
  apply List.ext_getElem
  · simp
  · intro i _ h
    simp only [List.getElem_map, List.getElem_range', Nat.one_mul]
    exact s.get_addAll_size_add rs h

variable {s}

theorem get_set_self {id : RecordId} (h : id < s.size) (r : Record) : (s.set id r).get id = r := by
  have h' : id < s.records.size := h
  simp [get, set, h']

theorem get_set_of_ne {id id' : RecordId} (h : id ≠ id') (r : Record) :
    (s.set id r).get id' = s.get id' := by
  simp only [get, set, Array.getD_eq_getD_getElem?, Array.getElem?_setIfInBounds_ne h]

end RecordStore

namespace Inventory

/-- The second inventory has all that the first one has, unchanged, and then the records `ids`,
each of which was made in between. -/
structure Grows (inv inv' : Inventory) (ids : List RecordId) : Prop where
  members : inv'.collection.members = inv.collection.members ++ ids
  kept : ∀ id < inv.store.size, inv'.get id = inv.get id
  fresh : ∀ id ∈ ids, inv.store.size ≤ id
  distinct : ids.Nodup
  size_le : inv.store.size ≤ inv'.store.size

variable {inv inv' inv₁ inv₂ inv₃ : Inventory} {ids ids' : List RecordId}

theorem Grows.refl (inv : Inventory) : inv.Grows inv [] :=
  ⟨by simp, fun _ _ ↦ rfl, by simp, List.nodup_nil, Nat.le_refl _⟩

theorem Grows.known (h : inv₁.Grows inv₂ ids) : ∀ id ∈ ids, id < inv₂.store.size := by
  intro id hid
  apply inv₂.members_known
  rw [h.members]
  exact List.mem_append_right _ hid

theorem Grows.trans (h : inv₁.Grows inv₂ ids) (h' : inv₂.Grows inv₃ ids') :
    inv₁.Grows inv₃ (ids ++ ids') where
  members := by rw [h'.members, h.members, List.append_assoc]
  kept id hid := (h'.kept id (Nat.lt_of_lt_of_le hid h.size_le)).trans (h.kept id hid)
  fresh id hid := by
    rcases List.mem_append.1 hid with hid | hid
    · exact h.fresh id hid
    · exact Nat.le_trans h.size_le (h'.fresh id hid)
  distinct := by
    refine List.nodup_append.2 ⟨h.distinct, h'.distinct, ?_⟩
    rintro id hid _ hid' rfl
    exact Nat.not_lt.2 (h'.fresh id hid') (h.known id hid)
  size_le := Nat.le_trans h.size_le h'.size_le

theorem Grows.records (h : inv₁.Grows inv₂ ids) :
    inv₂.records = inv₁.records ++ ids.map inv₂.get := by
  have hkept : inv₁.collection.members.map inv₂.get = inv₁.records :=
    List.map_congr_left fun id hid ↦ h.kept id (inv₁.members_known id hid)
  rw [Inventory.records, h.members, List.map_append, hkept]

theorem Grows.not_mem (h : inv₁.Grows inv₂ ids) {id : RecordId} (hid : id < inv₁.store.size)
    (hm : id ∉ inv₁.collection.members) : id ∉ inv₂.collection.members := by
  rw [h.members, List.mem_append, not_or]
  exact ⟨hm, fun hi ↦ Nat.not_lt.2 (h.fresh id hi) hid⟩

variable (inv) (rs : List Record) (r : Record)

theorem make_distinct : (inv.make rs).1.Nodup := List.nodup_range'

theorem map_get_make : (inv.make rs).1.map (inv.make rs).2.get = rs := inv.store.map_get_addAll rs

theorem grows_addRecords : inv.Grows (inv.addRecords rs).2 (inv.addRecords rs).1 where
  members := rfl
  kept _ h := inv.store.get_addAll_of_lt rs h
  fresh _ h := (List.mem_range'_1.1 h).1
  distinct := inv.make_distinct rs
  size_le := Nat.le.intro (RecordStore.size_addAll inv.store rs).symm

theorem map_get_addRecords : (inv.addRecords rs).1.map (inv.addRecords rs).2.get = rs :=
  inv.map_get_make rs

theorem grows_addRecord : inv.Grows (inv.addRecord r).2 [inv.store.size] := inv.grows_addRecords [r]

theorem get_addRecord : (inv.addRecord r).2.get inv.store.size = r :=
  inv.store.get_addAll_size_add [r] (i := 0) Nat.one_pos

variable {inv}

theorem Grows.set (h : inv.Grows inv' ids) {id : RecordId} (hid : inv.store.size ≤ id)
    (r : Record) : inv.Grows (inv'.set id r) ids where
  members := h.members
  kept id' hid' := by
    have hne : id ≠ id' := by
      rintro rfl
      exact Nat.not_lt.2 hid hid'
    exact (RecordStore.get_set_of_ne hne r).trans (h.kept id' hid')
  fresh := h.fresh
  distinct := h.distinct
  size_le := Nat.le_trans h.size_le (Nat.le_of_eq (RecordStore.size_set inv'.store id r).symm)

theorem Grows.get_set (h : inv.Grows inv' ids) {id : RecordId} (hid : id ∈ ids) (r : Record) :
    (inv'.set id r).get id = r :=
  RecordStore.get_set_self (h.known id hid) r

theorem Grows.remove (h : inv.Grows inv' ids) {id : RecordId} (hid : inv.store.size ≤ id) :
    inv.Grows (inv'.remove id) (ids.erase id) where
  members := by
    have hm : id ∉ inv.collection.members := fun hm ↦
      Nat.not_lt.2 hid (inv.members_known id hm)
    change inv'.collection.members.erase id = _
    rw [h.members, List.erase_append_right _ hm]
  kept := h.kept
  fresh id' hid' := h.fresh id' (List.mem_of_mem_erase hid')
  distinct := h.distinct.erase id
  size_le := h.size_le

end Inventory

end SwiftInventory
