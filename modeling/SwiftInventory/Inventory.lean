import SwiftInventory.Record.Basic

namespace SwiftInventory

abbrev RecordId := Nat

/-- Every record made so far. Two records with the same contents stay apart. -/
structure RecordStore where
  records : Array Record := #[]

namespace RecordStore

variable (s : RecordStore)

def size : Nat := s.records.size

def get (id : RecordId) : Record := s.records.getD id default

/-- New records get identities that no other record has. -/
def addAll (rs : List Record) : RecordStore := ⟨s.records ++ rs.toArray⟩

def set (id : RecordId) (r : Record) : RecordStore := ⟨s.records.setIfInBounds id r⟩

theorem size_addAll (rs : List Record) : (s.addAll rs).size = s.size + rs.length := by
  simp [size, addAll]

theorem size_set (id : RecordId) (r : Record) : (s.set id r).size = s.size := by
  simp [size, set]

end RecordStore

/-- A record may be in a collection more than once. -/
structure Collection where
  members : List RecordId := []
deriving DecidableEq

namespace Collection

variable (c : Collection)

def addAll (ids : List RecordId) : Collection := ⟨c.members ++ ids⟩

def contains (id : RecordId) : Bool := c.members.contains id

def remove (id : RecordId) : Collection := ⟨c.members.erase id⟩

def removal (id : RecordId) : Bool × Collection := (c.contains id, c.remove id)

def size : Nat := c.members.length

def named (s : RecordStore) (name : Option String) : List RecordId :=
  c.members.filter fun id ↦ (s.get id).name == name

def ofEcosystem (s : RecordStore) (ecosystem : Option String) : List RecordId :=
  c.members.filter fun id ↦ (s.get id).ecosystem == ecosystem

end Collection

structure Inventory where
  store : RecordStore := {}
  collection : Collection := {}
  members_known : ∀ id ∈ collection.members, id < store.size := by simp

namespace Inventory

variable (inv : Inventory)

def get (id : RecordId) : Record := inv.store.get id

def records : List Record := inv.collection.members.map inv.get

def set (id : RecordId) (r : Record) : Inventory where
  store := inv.store.set id r
  collection := inv.collection
  members_known := by simpa [RecordStore.size_set] using inv.members_known

def nextIds (count : Nat) : List RecordId := List.range' inv.store.size count

/-- Makes records, in order, that are in no collection. -/
def make (rs : List Record) : List RecordId × Inventory :=
  (inv.nextIds rs.length, {
    store := inv.store.addAll rs
    collection := inv.collection
    members_known := fun id h ↦ by
      rw [RecordStore.size_addAll]
      exact Nat.lt_add_right _ (inv.members_known id h) })

def collect (ids : List RecordId) (known : ∀ id ∈ ids, id < inv.store.size) : Inventory where
  store := inv.store
  collection := inv.collection.addAll ids
  members_known := fun id h ↦ by
    rcases List.mem_append.1 h with h | h
    · exact inv.members_known id h
    · exact known id h

theorem make_known (rs : List Record) :
    ∀ id ∈ (inv.make rs).1, id < (inv.make rs).2.store.size := by
  intro id h
  change id < (inv.store.addAll rs).size
  rw [RecordStore.size_addAll]
  exact (List.mem_range'_1.1 h).2

def addRecords (rs : List Record) : List RecordId × Inventory :=
  ((inv.make rs).1, (inv.make rs).2.collect (inv.make rs).1 (inv.make_known rs))

def addRecord (r : Record) : RecordId × Inventory := (inv.store.size, (inv.addRecords [r]).2)

def remove (id : RecordId) : Inventory where
  store := inv.store
  collection := inv.collection.remove id
  members_known := fun id' h ↦ inv.members_known id' (List.mem_of_mem_erase h)

def emptied : Inventory := { store := inv.store }

end Inventory

end SwiftInventory
