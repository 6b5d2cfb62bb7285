import SwiftInventory.Proofs.Growth
import SwiftInventory.Registry

namespace SwiftInventory

inductive FileReading
  | untaken
  | unread (e : Unreadable)
  | manifest (analyzer : String) (r : Record) (found : Except Interruption Manifest.Findings)
  | lock (analyzer : String) (found : Except Interruption (List Record))

inductive Verdict
  | skipped
  | failed (e : Unreadable)
  | analyzed (result : AnalysisResult)

def Verdict.answer : Except Interruption Verdict → Except AnalysisFault (Option AnalysisResult)
  | .ok .skipped => .ok none
  | .ok (.failed e) => .error (.unreadable e)
  | .ok (.analyzed result) => .ok (some result)
  | .error e => .error (.interrupted e)

namespace FileReading

def records : FileReading → List Record
  | untaken | unread _ | lock _ (.error _) => []
  | manifest _ r _ => [r]
  | lock _ (.ok rs) => rs

/-- The identities of these records, when `start` is the identity of the record for the file. -/
def ids (start : RecordId) : FileReading → List RecordId
  | untaken | unread _ | lock _ (.error _) => []
  | manifest _ _ _ => [start]
  | lock _ (.ok rs) => List.range' (start + 1) rs.length

def interruption? : FileReading → Option Interruption
  | manifest _ _ (.error e) | lock _ (.error e) => some e
  | _ => none

def verdict (p : Path) (start : RecordId) (reading : FileReading) : Except Interruption Verdict :=
  match reading with
  | untaken => .ok .skipped
  | unread e => .ok (.failed e)
  | manifest _ _ (.error e) | lock _ (.error e) => .error e
  | manifest analyzer _ (.ok found) => .ok (.analyzed {
      analyzer := analyzer
      filePath := p
      records := if found.listed then [start] else []
      declared := found.declared
      namedAfterFolder := found.namedAfterFolder
      genericIdentifier := found.genericIdentifier })
  | lock analyzer (.ok _) => .ok (.analyzed {
      analyzer := analyzer
      filePath := p
      records := reading.ids start
      removed := [start] })

end FileReading

namespace Analyzer

variable (a : Analyzer) (t : FileTree) (config : ScanConfig) (p : Path)

/-- A manifest whose path is too long leaves its record as it was made. -/
def reading : FileReading :=
  match a.kind, t.contents config p with
  | _, .error (.unreadable e) => .unread e
  | .manifest, .error (.pathTooLong e) =>
    .manifest a.name (.ofFile p false) (.error (.pathTooLong e))
  | .lock, .error (.pathTooLong e) => .lock a.name (.error (.pathTooLong e))
  | .manifest, .ok contents =>
    let (r, found) := Manifest.extract t.current (.ofFile p false) contents
    .manifest a.name r (found.mapError .slashesOnly)
  | .lock, .ok contents => .lock a.name ((Lock.extract p contents).mapError .slashesOnly)

end Analyzer

/-- The second inventory is the first one with all that a file leaves behind. The identity of the
record for the file is in use from then on. -/
structure Inventory.TakesIn (inv inv' : Inventory) (reading : FileReading) : Prop where
  grows : inv.Grows inv' (reading.ids inv.store.size)
  records : (reading.ids inv.store.size).map inv'.get = reading.records
  used : reading ≠ .untaken → inv.store.size < inv'.store.size

namespace Inventory

variable (inv : Inventory) (p : Path)

def opened : Inventory := (inv.addRecord (.ofFile p false)).2

theorem grows_opened : inv.Grows (inv.opened p) [inv.store.size] := inv.grows_addRecord _

theorem get_opened : (inv.opened p).get inv.store.size = .ofFile p false := inv.get_addRecord _

theorem size_opened : (inv.opened p).store.size = inv.store.size + 1 :=
  inv.store.size_addAll [.ofFile p false]

theorem used_opened : inv.store.size < (inv.opened p).store.size := by
  rw [size_opened]
  exact Nat.lt_succ_self _

theorem contains_opened : (inv.opened p).collection.contains inv.store.size = true := by
  rw [Collection.contains, (inv.grows_opened p).members]
  simp

def closed : Inventory := (inv.opened p).remove inv.store.size

theorem grows_closed : inv.Grows (inv.closed p) [] := by
  simpa [closed] using (inv.grows_opened p).remove (Nat.le_refl inv.store.size)

theorem used_closed : inv.store.size < (inv.closed p).store.size := inv.used_opened p

end Inventory

namespace Analyzer

variable (a : Analyzer) {t : FileTree} {config : ScanConfig} {p : Path}

theorem reading_of_unreadable {e : Unreadable} (h : t.contents config p = .error (.unreadable e)) :
    a.reading t config p = .unread e := by
  simp only [reading, h]

theorem reading_of_manifest (hk : a.kind = .manifest) {contents : String}
    (h : t.contents config p = .ok contents) :
    a.reading t config p =
      .manifest a.name (Manifest.extract t.current (.ofFile p false) contents).1
        ((Manifest.extract t.current (.ofFile p false) contents).2.mapError .slashesOnly) := by
  simp only [reading, hk, h]

theorem reading_of_lock (hk : a.kind = .lock) {contents : String}
    (h : t.contents config p = .ok contents) :
    a.reading t config p = .lock a.name ((Lock.extract p contents).mapError .slashesOnly) := by
  simp only [reading, hk, h]

theorem interruption_of_pathTooLong {e : PathTooLong}
    (h : t.contents config p = .error (.pathTooLong e)) :
    (a.reading t config p).interruption? = some (.pathTooLong e) := by
  cases hk : a.kind <;> simp only [reading, hk, h, FileReading.interruption?]

variable (inv : Inventory)

theorem analyze_manifest (hk : a.kind = .manifest) :
    a.analyze t config inv.store.size (inv.opened p) =
      match t.contents config p with
      | .error e => (inv.opened p, .error (.ofRead e))
      | .ok contents =>
        let (r, found) := Manifest.extract t.current (.ofFile p false) contents
        ((inv.opened p).set inv.store.size r, (found.map fun found ↦ {
          analyzer := a.name
          filePath := p
          records := if found.listed then [inv.store.size] else []
          declared := found.declared
          namedAfterFolder := found.namedAfterFolder
          genericIdentifier := found.genericIdentifier }).mapError .ofSlashes) := by
  have hfile : ((inv.opened p).get inv.store.size).actualFile = p := by
    rw [inv.get_opened p]
    rfl
  simp only [analyze, hk, analyzeManifest, hfile]
  cases t.contents config p with
  | error e => rfl
  | ok contents =>
    simp only [extractManifest, inv.get_opened p]
    cases Manifest.extract t.current (.ofFile p false) contents with | mk r found =>
    cases found <;> rfl

theorem analyze_lock (hk : a.kind = .lock) :
    a.analyze t config inv.store.size (inv.opened p) =
      match t.contents config p with
      | .error e => (inv.closed p, .error (.ofRead e))
      | .ok contents =>
        match Lock.extract p contents with
        | .error e => (inv.closed p, .error (.ofSlashes e))
        | .ok rs => (((inv.closed p).addRecords rs).2, .ok {
            analyzer := a.name
            filePath := p
            records := ((inv.closed p).addRecords rs).1
            removed := [inv.store.size] }) := by
  have hfile : ((inv.opened p).get inv.store.size).actualFile = p := by
    rw [inv.get_opened p]
    rfl
  simp only [analyze, hk, analyzeLock, hfile, inv.contains_opened p, if_true]
  cases t.contents config p with
  | error e => rfl
  | ok contents =>
    simp only [inv.get_opened p]
    cases Lock.extract p contents <;> rfl

theorem analyze_unread {e : Unreadable} (h : t.contents config p = .error (.unreadable e)) :
    ∃ inv', a.analyze t config inv.store.size (inv.opened p) = (inv', .error (.unreadable e)) ∧
      inv.TakesIn (inv'.remove inv.store.size) (.unread e) := by
  cases hk : a.kind with
  | manifest =>
    refine ⟨inv.opened p, ?_, inv.grows_closed p, rfl, fun _ ↦ inv.used_opened p⟩
    rw [a.analyze_manifest inv hk, h]
    rfl
  | lock =>
    have hgone := (inv.grows_closed p).remove (Nat.le_refl inv.store.size)
    refine ⟨inv.closed p, ?_, hgone, rfl, fun _ ↦ inv.used_closed p⟩
    rw [a.analyze_lock inv hk, h]
    rfl

/-- The analyzer takes in what is read in the file, and only an interruption keeps it from a
result. -/
def Follows (t : FileTree) (config : ScanConfig) (p : Path) : Prop :=
  ∃ inv', ∃ result : Except Interruption AnalysisResult,
    a.analyze t config inv.store.size (inv.opened p) = (inv', result.mapError .interrupted) ∧
    (a.reading t config p).verdict p inv.store.size = result.map .analyzed ∧
    inv.TakesIn inv' (a.reading t config p)

theorem follows_of_pathTooLong {e : PathTooLong}
    (h : t.contents config p = .error (.pathTooLong e)) : a.Follows inv t config p := by
  cases hk : a.kind with
  | manifest =>
    have hr : a.reading t config p =
        .manifest a.name (.ofFile p false) (.error (.pathTooLong e)) := by
      simp only [reading, hk, h]
    rw [Follows, hr, a.analyze_manifest inv hk, h]
    refine ⟨inv.opened p, .error (.pathTooLong e), rfl, rfl, inv.grows_opened p, ?_,
      fun _ ↦ inv.used_opened p⟩
    simp [FileReading.ids, FileReading.records, inv.get_opened p]
  | lock =>
    have hr : a.reading t config p = .lock a.name (.error (.pathTooLong e)) := by
      simp only [reading, hk, h]
    rw [Follows, hr, a.analyze_lock inv hk, h]
    exact ⟨inv.closed p, .error (.pathTooLong e), rfl, rfl, inv.grows_closed p, rfl,
      fun _ ↦ inv.used_closed p⟩

theorem follows_of_manifest (hk : a.kind = .manifest) {contents : String}
    (h : t.contents config p = .ok contents) : a.Follows inv t config p := by
  rw [Follows, a.reading_of_manifest hk h, a.analyze_manifest inv hk, h]
  cases hx : Manifest.extract t.current (.ofFile p false) contents with | mk r found =>
  simp only [hx]
  have hgrows := (inv.grows_opened p).set (Nat.le_refl inv.store.size) r
  have hget := (inv.grows_opened p).get_set List.mem_cons_self r
  have hused : inv.store.size < ((inv.opened p).set inv.store.size r).store.size := by
    rw [Inventory.set, RecordStore.size_set]
    exact inv.used_opened p
  cases found with
  | error e =>
    refine ⟨_, .error (.slashesOnly e), rfl, rfl, hgrows, ?_, fun _ ↦ hused⟩
    simp [FileReading.ids, FileReading.records, hget]
  | ok found =>
    refine ⟨_, .ok _, rfl, rfl, hgrows, ?_, fun _ ↦ hused⟩
    simp [FileReading.ids, FileReading.records, hget]

theorem follows_of_lock (hk : a.kind = .lock) {contents : String}
    (h : t.contents config p = .ok contents) : a.Follows inv t config p := by
  rw [Follows, a.reading_of_lock hk h, a.analyze_lock inv hk, h]
  cases hx : Lock.extract p contents with
  | error e =>
    simp only [hx]
    exact ⟨inv.closed p, .error (.slashesOnly e), rfl, rfl, inv.grows_closed p, rfl,
      fun _ ↦ inv.used_closed p⟩
  | ok rs =>
    have hids : ((inv.closed p).addRecords rs).1 =
        List.range' (inv.store.size + 1) rs.length := by
      rw [← inv.size_opened p]
      rfl
    have hadd := (inv.closed p).grows_addRecords rs
    have hmap := (inv.closed p).map_get_addRecords rs
    rw [hids] at hadd hmap
    simp only [hx, hids]
    refine ⟨((inv.closed p).addRecords rs).2, .ok _, rfl, rfl, (inv.grows_closed p).trans hadd,
      hmap, fun _ ↦ ?_⟩
    exact Nat.lt_of_lt_of_le (inv.used_closed p) hadd.size_le

theorem follows (h : ∀ e, t.contents config p ≠ .error (.unreadable e)) :
    a.Follows inv t config p := by
  cases hc : t.contents config p with
  | error fault =>
    cases fault with
    | unreadable e => exact absurd hc (h e)
    | pathTooLong e => exact a.follows_of_pathTooLong inv hc
  | ok contents =>
    cases hk : a.kind with
    | manifest => exact a.follows_of_manifest inv hk hc
    | lock => exact a.follows_of_lock inv hk hc

end Analyzer

namespace Registry

variable (reg : Registry) (t : FileTree) (config : ScanConfig) (p : Path)

def taker? : Option Analyzer := (reg.find? p).filter (config.isEnabled ·.parserType)

def reading : FileReading :=
  match reg.taker? config p with
  | none => .untaken
  | some a => a.reading t config p

variable {t config p} {inv : Inventory}

theorem analyzeFile_of_untaken (h : reg.taker? config p = none) :
    reg.analyzeFile t config p inv = (inv, .ok none) := by
  rw [analyzeFile]
  cases hf : reg.find? p with
  | none => rfl
  | some a =>
    have hoff : config.isEnabled a.parserType = false := by simpa [taker?, hf] using h
    simp [hoff]

theorem analyzeFile_of_taken {a : Analyzer} (h : reg.taker? config p = some a) :
    reg.analyzeFile t config p inv =
      match a.analyze t config inv.store.size (inv.opened p) with
      | (inv', .ok result) => (inv', .ok (some result))
      | (inv', .error (.unreadable e)) => (inv'.remove inv.store.size, .error (.unreadable e))
      | (inv', .error fault) => (inv', .error fault) := by
  obtain ⟨hf, hon⟩ := Option.filter_eq_some_iff.1 h
  simp only [analyzeFile, hf, hon, Bool.not_true, Bool.false_eq_true, if_false]
  rfl

/-- What is read in a file settles what its analysis gives and what it leaves behind. -/
theorem analyzeFile_eq (t : FileTree) (config : ScanConfig) (p : Path) (inv : Inventory) :
    ∃ inv', reg.analyzeFile t config p inv =
        (inv', Verdict.answer ((reg.reading t config p).verdict p inv.store.size)) ∧
      inv.TakesIn inv' (reg.reading t config p) := by
  rw [reading]
  cases ha : reg.taker? config p with
  | none =>
    exact ⟨inv, reg.analyzeFile_of_untaken ha, .refl inv, rfl, fun h ↦ absurd rfl h⟩
  | some a =>
    rw [reg.analyzeFile_of_taken ha]
    by_cases hu : ∃ e, t.contents config p = .error (.unreadable e)
    · obtain ⟨e, he⟩ := hu
      obtain ⟨inv', hx, hin⟩ := a.analyze_unread inv he
      have hr := a.reading_of_unreadable he
      rw [← hr] at hin
      refine ⟨inv'.remove inv.store.size, ?_, hin⟩
      rw [hx]
      simp only [hr]
      rfl
    · obtain ⟨inv', result, hx, hv, hin⟩ := a.follows inv (not_exists.1 hu)
      refine ⟨inv', ?_, hin⟩
      rw [hx, hv]
      cases result <;> rfl

end Registry

end SwiftInventory
