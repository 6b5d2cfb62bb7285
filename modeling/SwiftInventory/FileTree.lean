import SwiftInventory.Path

namespace SwiftInventory

inductive Entry
  | folder
  | file (octets : List UInt8)
deriving DecidableEq

/-- Whether an entry may stand at a location: it is not the root, no double dot leads to it, and a
folder is around it. -/
def Entry.HeldIn (entries : List (Location × Entry)) (l : Location) : Prop :=
  l ≠ [] ∧ (∀ part ∈ l, part.isBack = false) ∧
    (l.dropLast = [] ∨ (l.dropLast, Entry.folder) ∈ entries)

instance (entries : List (Location × Entry)) (l : Location) : Decidable (Entry.HeldIn entries l) :=
  inferInstanceAs (Decidable (_ ∧ _ ∧ _))

/-- `current` is the working folder, and `unreadable` holds the places that may not be read. The
root folder has no entry of its own. -/
structure FileTree where
  current : Location := []
  entries : List (Location × Entry) := []
  unreadable : List Location := []
  entries_distinct : (entries.map (·.1)).Nodup := by simp
  entries_held : ∀ e ∈ entries, Entry.HeldIn entries e.1 := by simp
  unreadable_held : ∀ l ∈ unreadable, l ∈ entries.map (·.1) := by simp

inductive FileTree.Fault
  | missing
  | notFolder
  | isFolder
  | taken
  | tooLong
  | nullCharacter
deriving DecidableEq

/-- A path, or a name in it, is longer than any that is there. Unlike a path that merely leads
nowhere, it cannot even be asked about. -/
structure PathTooLong where
  path : Path
deriving DecidableEq

/-- The tree after a change. A fault that ends the change comes with all that was done before. -/
structure FileTree.Change where
  tree : FileTree
  fault : Option FileTree.Fault := none

namespace FileTree

variable (t : FileTree)

def empty : FileTree := {}

def entryAt? (l : Location) : Option Entry := if l.isEmpty then some .folder else t.entries.lookup l

/-- One part of a path. Only a folder can be left or entered. -/
def step (l : Location) (part : Path.Part) : Except Fault Location :=
  match t.entryAt? l with
  | none => .error .missing
  | some (.file _) => .error .notFolder
  | some .folder =>
    if part.isBack then .ok l.dropLast
    else if part.isTooLong then .error .tooLong
    else .ok (l ++ [part])

def start (p : Path) : Location := if p.isAbsolute then [] else t.current

/-- The location that a path names, whether or not an entry is there. -/
def locate (p : Path) : Except Fault Location :=
  if p.holdsNull then .error .nullCharacter
  else if p.isTooLong then .error .tooLong
  else p.parts.foldlM t.step (t.start p)

def find? (p : Path) : Except PathTooLong (Option Entry) :=
  match t.locate p with
  | .ok l => .ok (t.entryAt? l)
  | .error .tooLong => .error ⟨p⟩
  | .error _ => .ok none

def exists? (p : Path) : Except PathTooLong Bool := return (← t.find? p).isSome

def read? (p : Path) : Except PathTooLong (Option (List UInt8)) := do
  match ← t.find? p with
  | some (.file octets) => return some octets
  | _ => return none

def isFile (p : Path) : Except PathTooLong Bool := return (← t.read? p).isSome

def isFolder (p : Path) : Bool :=
  match t.locate p with
  | .ok l => t.entryAt? l == some .folder
  | .error _ => false

def isReadable (p : Path) : Bool :=
  match t.locate p with
  | .ok l => (t.entryAt? l).isSome && !t.unreadable.contains l
  | .error _ => false

/-- What lies below a folder, at locations relative to it. -/
def below (l : Location) : List (Location × Entry) :=
  t.entries.filterMap fun (l', e) ↦ (l.isPrefixOf? l').map (·, e)

theorem mem_iff_lookup {entries : List (Location × Entry)} (distinct : (entries.map (·.1)).Nodup)
    {l : Location} {e : Entry} : (l, e) ∈ entries ↔ entries.lookup l = some e := by
  induction entries with
  | nil => simp
  | cons first rest ih =>
    obtain ⟨l', e'⟩ := first
    simp only [List.map_cons, List.nodup_cons] at distinct
    by_cases h : l = l'
    · subst h
      have : (l, e) ∉ rest := fun mem ↦ distinct.1 (List.mem_map.2 ⟨_, mem, rfl⟩)
      simp [this, eq_comm]
    · have : (l == l') = false := by simpa using h
      simp [List.lookup_cons, h, this, ih distinct.2]

def HasRoom (l : Location) : Prop := Entry.HeldIn t.entries l ∧ t.entryAt? l ≠ some .folder

instance (l : Location) : Decidable (t.HasRoom l) := inferInstanceAs (Decidable (_ ∧ _))

theorem held_insert {l : Location} (room : t.HasRoom l) (e : Entry) {l' : Location}
    (held : Entry.HeldIn t.entries l') :
    Entry.HeldIn (t.entries.filter (·.1 != l) ++ [(l, e)]) l' := by
  refine ⟨held.1, held.2.1, held.2.2.imp_right fun mem ↦ ?_⟩
  have h : l'.dropLast ≠ l := by
    rintro rfl
    have : l'.dropLast ≠ [] := room.1.1
    exact room.2 (by simpa [entryAt?, this] using (mem_iff_lookup t.entries_distinct).1 mem)
  simp [mem, h]

def insert (l : Location) (e : Entry) (room : t.HasRoom l) : FileTree where
  current := t.current
  entries := t.entries.filter (·.1 != l) ++ [(l, e)]
  unreadable := t.unreadable
  entries_distinct := by
    rw [List.map_append, List.nodup_append]
    refine ⟨t.entries_distinct.sublist (List.filter_sublist.map _), by simp, ?_⟩
    simp only [List.mem_map, List.mem_filter, List.map_cons, List.map_nil, List.mem_singleton]
    rintro _ ⟨e', ⟨_, h⟩, rfl⟩ _ rfl
    simpa using h
  entries_held := by
    simp only [List.mem_append, List.mem_filter, List.mem_singleton]
    rintro e' (⟨mem, _⟩ | rfl)
    · exact t.held_insert room e (t.entries_held e' mem)
    · exact t.held_insert room e room.1
  unreadable_held := by
    intro l' mem
    obtain ⟨e', mem', rfl⟩ := List.mem_map.1 (t.unreadable_held l' mem)
    by_cases h : e'.1 = l
    · simp [h]
    · exact List.mem_map_of_mem (by simp [mem', h])

def makeFolder (p : Path) : Except Fault FileTree := do
  let l ← t.locate p
  if (t.entryAt? l).isSome then .error .taken
  else if room : t.HasRoom l then .ok (t.insert l .folder room)
  else .error .missing

def ensureFolder (p : Path) : Change :=
  match t.makeFolder p with
  | .ok t => ⟨t, none⟩
  | .error fault => ⟨t, if t.isFolder p then none else some fault⟩

/-- The number bounds the folders that can be missing. -/
def makeFoldersFrom (t : FileTree) (p : Path) : Nat → Change
  | 0 => ⟨t, some .missing⟩
  | n + 1 =>
    match t.makeFolder p with
    | .error .missing =>
      match makeFoldersFrom t p.parent n with
      | ⟨t, none⟩ => t.ensureFolder p
      | faulty => faulty
    | _ => t.ensureFolder p

/-- Adds the folder of a path and every folder on the way to it. Those that are there already
are left alone. -/
def makeFolders (p : Path) : Change := t.makeFoldersFrom p (p.parts.length + 1)

def write (p : Path) (octets : List UInt8) : Except Fault FileTree := do
  let l ← t.locate p
  if t.entryAt? l == some .folder then .error .isFolder
  else if room : t.HasRoom l then .ok (t.insert l (.file octets) room)
  else .error .missing

def save (p : Path) (octets : List UInt8) : Change :=
  match t.makeFolders p.parent with
  | ⟨t, none⟩ =>
    match t.write p octets with
    | .ok t => ⟨t, none⟩
    | .error fault => ⟨t, some fault⟩
  | faulty => faulty

def deleteAt (l : Location) : FileTree where
  current := t.current
  entries := t.entries.filter fun e ↦ !l.isPrefixOf e.1
  unreadable := t.unreadable.filter fun l' ↦ !l.isPrefixOf l'
  entries_distinct := t.entries_distinct.sublist (List.filter_sublist.map _)
  entries_held := by
    simp only [List.mem_filter]
    rintro e ⟨mem, kept⟩
    obtain ⟨own, back, around⟩ := t.entries_held e mem
    refine ⟨own, back, around.imp_right fun around ↦ ?_⟩
    rw [List.mem_filter]
    refine ⟨around, ?_⟩
    simp only [Bool.not_eq_true', ← Bool.not_eq_true, List.isPrefixOf_iff_prefix] at kept ⊢
    exact fun h ↦ kept (h.trans (List.dropLast_prefix _))
  unreadable_held := by
    intro l' mem
    obtain ⟨mem, kept⟩ := List.mem_filter.1 mem
    obtain ⟨e, mem', rfl⟩ := List.mem_map.1 (t.unreadable_held l' mem)
    exact List.mem_map_of_mem (List.mem_filter.2 ⟨mem', kept⟩)

def delete (p : Path) : Except Fault FileTree := do
  let l ← t.locate p
  match t.entryAt? l with
  | none => .error .missing
  | some .folder => .error .isFolder
  | some (.file _) => .ok (t.deleteAt l)

def enter (p : Path) : FileTree :=
  match t.locate p with
  | .ok l => if t.entryAt? l == some .folder then { t with current := l } else t
  | .error _ => t

def forbid (p : Path) : FileTree :=
  match t.locate p with
  | .ok l =>
    if held : l ∈ t.entries.map (·.1) then
      { t with
        unreadable := l :: t.unreadable
        unreadable_held := List.forall_mem_cons.2 ⟨held, t.unreadable_held⟩ }
    else t
  | .error _ => t

def currentNames : List String :=
  t.entries.filterMap fun (l, _) ↦
    match t.current.isPrefixOf? l with
    | some [part] => some part.text
    | _ => none

end FileTree

end SwiftInventory
