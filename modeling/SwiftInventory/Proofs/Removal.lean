import SwiftInventory.Proofs.Scan.Builtin

namespace SwiftInventory

namespace Collection

variable {c c' : Collection} {id id' : RecordId}

inductive Call
  | add (id : RecordId)
  | remove (id : RecordId)

def call (c : Collection) : Call → Collection
  | .add id => c.addAll [id]
  | .remove id => (c.removal id).2

def after (c : Collection) (calls : List Call) : Collection := calls.foldl call c

/-- One call more or less for a record. There is nothing to take back from none. -/
def Call.tally (id : RecordId) (n : Nat) : Call → Nat
  | add id' => if id' = id then n + 1 else n
  | remove id' => if id' = id then n - 1 else n

def held (c : Collection) (calls : List Call) (id : RecordId) : Nat :=
  calls.foldl (Call.tally id) (c.members.count id)

theorem count_call (c : Collection) (step : Call) (id : RecordId) :
    (c.call step).members.count id = step.tally id (c.members.count id) := by
  cases step with
  | add id' =>
    rw [call, addAll, List.count_append, List.count_singleton, Call.tally]
    by_cases h : id' = id <;> simp [h]
  | remove id' =>
    rw [call, removal, remove, List.count_erase, Call.tally]
    by_cases h : id' = id <;> simp [h]

theorem count_after (c : Collection) (calls : List Call) (id : RecordId) :
    (c.after calls).members.count id = c.held calls id := by
  induction calls generalizing c with
  | nil => rfl
  | cons step calls ih =>
    rw [after, List.foldl_cons, held, List.foldl_cons, ← count_call]
    exact ih (c.call step)

theorem nodup_after_iff (c : Collection) (calls : List Call) :
    (c.after calls).members.Nodup ↔ ∀ id, c.held calls id ≤ 1 := by
  simp only [List.nodup_iff_count_le_one, count_after]

/-- What comes of a removal: the first occurrence is left out, and the answer tells whether there
was one. -/
inductive Removes (id : RecordId) : Collection → Bool → Collection → Prop
  | first {front back : List RecordId} (h : id ∉ front) :
      Removes id ⟨front ++ id :: back⟩ true ⟨front ++ back⟩
  | absent {ids : List RecordId} (h : id ∉ ids) : Removes id ⟨ids⟩ false ⟨ids⟩

theorem removes_removal (c : Collection) (id : RecordId) :
    Removes id c (c.removal id).1 (c.removal id).2 := by
  obtain ⟨ids⟩ := c
  by_cases h : id ∈ ids
  · obtain ⟨front, back, hfront, hids, herase⟩ := List.exists_erase_eq h
    have hanswer : (removal ⟨ids⟩ id).1 = true := List.contains_iff_mem.2 h
    have hleft : (removal ⟨ids⟩ id).2 = ⟨front ++ back⟩ := congrArg Collection.mk herase
    rw [hanswer, hleft, hids]
    exact .first hfront
  · have hanswer : (removal ⟨ids⟩ id).1 = false :=
      Bool.eq_false_iff.2 fun hmem ↦ h (List.contains_iff_mem.1 hmem)
    have hleft : (removal ⟨ids⟩ id).2 = ⟨ids⟩ := congrArg Collection.mk (List.erase_of_not_mem h)
    rw [hanswer, hleft]
    exact .absent h

theorem Removes.others {answer : Bool} (h : Removes id c answer c') :
    c'.members.filter (· != id) = c.members.filter (· != id) := by
  cases h with
  | first hfront => simp
  | absent hids => rfl

theorem contains_eq_false_iff : c.contains id = false ↔ c.members.count id = 0 := by
  rw [List.count_eq_zero, ← List.contains_iff_mem, Bool.not_eq_true, contains]

theorem contains_remove : (c.remove id).contains id = false ↔ c.members.count id ≤ 1 := by
  rw [contains_eq_false_iff, remove, List.count_erase_self, Nat.sub_eq_zero_iff_le]

end Collection

namespace Analyzer

variable {a : Analyzer} {t : FileTree} {config : ScanConfig} {id : RecordId} {inv : Inventory}

/-- Whatever comes of it, the analysis of a lock file takes out one occurrence of its record and puts
in records that are new. -/
theorem members_analyze_lock (hk : a.kind = .lock) (t : FileTree) (config : ScanConfig)
    (id : RecordId) (inv : Inventory) :
    ∃ ids, (a.analyze t config id inv).1.collection.members =
        (inv.collection.remove id).members ++ ids ∧ ∀ id' ∈ ids, inv.store.size ≤ id' := by
  have hnone : (inv.remove id).collection.members = (inv.collection.remove id).members ++ [] :=
    (List.append_nil _).symm
  simp only [analyze, hk, analyzeLock]
  cases t.contents config (inv.get id).actualFile with
  | error e => exact ⟨[], hnone, by simp⟩
  | ok contents =>
    dsimp only
    cases Lock.extract (inv.get id).actualFile contents with
    | error e => exact ⟨[], hnone, by simp⟩
    | ok rs =>
      have hgrows := (inv.remove id).grows_addRecords rs
      exact ⟨_, hgrows.members, hgrows.fresh⟩

theorem contains_analyze_lock (hk : a.kind = .lock) (hid : id < inv.store.size) :
    (a.analyze t config id inv).1.collection.contains id = false ↔
      inv.collection.members.count id ≤ 1 := by
  obtain ⟨ids, hmembers, hnew⟩ := members_analyze_lock hk t config id inv
  have hids : ids.count id = 0 := List.count_eq_zero.2 fun h ↦ Nat.not_lt.2 (hnew id h) hid
  rw [Collection.contains_eq_false_iff, hmembers, List.count_append, hids, Nat.add_zero,
    ← Collection.contains_eq_false_iff, Collection.contains_remove]

end Analyzer

namespace Collection

/-- A removal takes out one occurrence and leaves all other records in their order, and it is final
exactly when the record was held no more than once, as is every record of a collection that is a
set. The same holds of the removal with which the analysis of a lock file begins. -/
theorem removal_final_iff (c : Collection) (calls : List Call) (id : RecordId) :
    ((c.after calls).members.Nodup ↔ ∀ id, c.held calls id ≤ 1) ∧
    Removes id (c.after calls) ((c.after calls).removal id).1 ((c.after calls).removal id).2 ∧
    ((c.after calls).removal id).2.members.filter (· != id) =
      (c.after calls).members.filter (· != id) ∧
    (((c.after calls).removal id).2.contains id = false ↔ c.held calls id ≤ 1) ∧
    ((((c.after calls).removal id).2.removal id).1 = false ↔ c.held calls id ≤ 1) ∧
    ∀ (a : Analyzer) (t : FileTree) (config : ScanConfig) (inv : Inventory), a.kind = .lock →
      inv.collection = c.after calls → id < inv.store.size →
        ((a.analyze t config id inv).1.collection.contains id = false ↔ c.held calls id ≤ 1) := by
  have hremoves := removes_removal (c.after calls) id
  have hgone : ((c.after calls).removal id).2.contains id = false ↔ c.held calls id ≤ 1 := by
    rw [removal, contains_remove, count_after]
  refine ⟨nodup_after_iff c calls, hremoves, hremoves.others, hgone, hgone, ?_⟩
  intro a t config inv hk hcollection hid
  rw [Analyzer.contains_analyze_lock hk hid, hcollection, count_after]

def ofLockFile (ids : List RecordId) (known : ∀ id ∈ ids, id < 1) : Inventory :=
  ⟨⟨#[.ofFile (.ofString Lock.fileName) false]⟩, ⟨ids⟩, known⟩

theorem taken_back_once :
    let inv := ofLockFile [0] (by decide)
    let calls : List Call := [.add 0, .remove 0, .remove 0, .add 0]
    inv.collection = ({} : Collection).after calls ∧ (0 : RecordId) < inv.store.size ∧
    (Analyzer.lock.analyze (.ofTexts []) {} 0 inv).1.collection.contains 0 = false := by
  intro inv calls
  have hcollection : inv.collection = ({} : Collection).after calls := rfl
  have hid : (0 : RecordId) < inv.store.size := by decide
  obtain ⟨-, -, -, -, -, hlock⟩ := removal_final_iff {} calls 0
  exact ⟨hcollection, hid, (hlock .lock (.ofTexts []) {} inv rfl hcollection hid).2 (by decide)⟩

/-- A record that is added twice stays after a removal, and after the analysis of its lock file, be
the file there or not. -/
theorem added_twice_stays :
    let inv := ofLockFile [0, 0] (by decide)
    inv.collection = ({} : Collection).after [.add 0, .add 0] ∧
    (inv.collection.removal 0).2.contains 0 = true ∧
    ((inv.collection.removal 0).2.removal 0).1 = true ∧
    (Analyzer.lock.analyze (.ofTexts []) {} 0 inv).2 =
      .error (.unreadable ⟨.ofString Lock.fileName, .missing⟩) ∧
    (Analyzer.lock.analyze (.ofTexts []) {} 0 inv).1.collection.contains 0 = true ∧
    (Analyzer.lock.analyze (.ofTexts [(Lock.fileName, "")]) {} 0 inv).2.isOk = true ∧
    (Analyzer.lock.analyze (.ofTexts [(Lock.fileName, "")]) {} 0 inv).1.collection.contains 0 =
      true := by
  decide +kernel

end Collection

end SwiftInventory
