import Mathlib.Data.List.Induction
import SwiftInventory.Proofs.Analysis

namespace SwiftInventory

namespace FileReading

variable {reading : FileReading} (p : Path) (start : RecordId)

theorem verdict_eq_error {e : Interruption} (h : reading.interruption? = some e) :
    reading.verdict p start = .error e := by
  unfold interruption? at h
  split at h <;> simp_all [verdict]

theorem verdict_eq_ok (h : reading.interruption? = none) :
    ∃ v, reading.verdict p start = .ok v := by
  unfold interruption? at h
  unfold verdict
  split at h <;> split <;> simp_all

end FileReading

def ScanOutcome.enter (o : ScanOutcome) (p : Path) : Verdict → ScanOutcome
  | .skipped => o.addSkipped p
  | .failed e => o.addFailure p e
  | .analyzed result => o.addResult result

/-- One place in the list of a scan: the verdict on its file and the records it put into the
collection. -/
structure ScanEntry where
  path : Path
  verdict : Verdict
  added : List RecordId

namespace ScanEntry

def result? (e : ScanEntry) : Option AnalysisResult :=
  match e.verdict with
  | .analyzed result => some result
  | _ => none

def failure? (e : ScanEntry) : Option (Path × Unreadable) :=
  match e.verdict with
  | .failed fault => some (e.path, fault)
  | _ => none

def skipped? (e : ScanEntry) : Option Path :=
  match e.verdict with
  | .skipped => some e.path
  | _ => none

variable (o : ScanOutcome) (e : ScanEntry)

theorem enter_eq :
    o.enter e.path e.verdict = {
      results := o.results ++ e.result?.toList
      failures := o.failures ++ e.failure?.toList
      skipped := o.skipped ++ e.skipped?.toList } := by
  rw [result?, failure?, skipped?]
  cases e.verdict <;> simp [ScanOutcome.enter, ScanOutcome.addResult, ScanOutcome.addFailure,
    ScanOutcome.addSkipped]

/-- An entry is what is read in its file, put down under the identity `start`. -/
structure Stands (reg : Registry) (t : FileTree) (config : ScanConfig) (inv : Inventory)
    (e : ScanEntry) (start : RecordId) : Prop where
  verdict : (reg.reading t config e.path).verdict e.path start = .ok e.verdict
  added : e.added = (reg.reading t config e.path).ids start
  records : e.added.map inv.get = (reg.reading t config e.path).records
  known : ∀ id ∈ e.added, id < inv.store.size
  used : reg.reading t config e.path ≠ .untaken → start < inv.store.size
  absent : reg.reading t config e.path ≠ .untaken → start ∉ e.added →
    start ∉ inv.collection.members

variable {reg : Registry} {t : FileTree} {config : ScanConfig} {inv inv' : Inventory}
  {e : ScanEntry} {start : RecordId} {ids : List RecordId}

theorem Stands.mono (h : e.Stands reg t config inv start) (hg : inv.Grows inv' ids) :
    e.Stands reg t config inv' start where
  verdict := h.verdict
  added := h.added
  records := by
    rw [← h.records]
    exact List.map_congr_left fun id hid ↦ hg.kept id (h.known id hid)
  known id hid := Nat.lt_of_lt_of_le (h.known id hid) hg.size_le
  used hne := Nat.lt_of_lt_of_le (h.used hne) hg.size_le
  absent hne hid := hg.not_mem (h.used hne) (h.absent hne hid)

end ScanEntry

namespace Registry

variable (reg : Registry) (t : FileTree) (config : ScanConfig) (p : Path)

theorem analyzeNext_of_fault {s : ScanState} {e : Interruption} (h : s.fault = some e) :
    reg.analyzeNext t config s p = s := by
  simp [analyzeNext, h]

theorem analyzeNext_eq {s : ScanState} (h : s.fault = none) :
    ∃ inv', s.inventory.TakesIn inv' (reg.reading t config p) ∧
      reg.analyzeNext t config s p =
        match (reg.reading t config p).verdict p s.inventory.store.size with
        | .ok v => { inventory := inv', outcome := s.outcome.enter p v }
        | .error e => { inventory := inv', outcome := s.outcome, fault := some e } := by
  obtain ⟨inv', hx, hin⟩ := reg.analyzeFile_eq t config p s.inventory
  refine ⟨inv', hin, ?_⟩
  rw [analyzeNext, hx]
  cases (reg.reading t config p).verdict p s.inventory.store.size with
  | error e => simp [h, Verdict.answer]
  | ok v => cases v <;> simp [h, Verdict.answer, ScanOutcome.enter]

theorem fault_analyzeNext (s : ScanState) :
    (reg.analyzeNext t config s p).fault =
      s.fault.or (reg.reading t config p).interruption? := by
  cases hs : s.fault with
  | some e => rw [reg.analyzeNext_of_fault t config p hs, hs, Option.some_or]
  | none =>
    obtain ⟨inv', -, hx⟩ := reg.analyzeNext_eq t config p hs
    rw [hx, Option.none_or]
    cases hi : (reg.reading t config p).interruption? with
    | some e => rw [FileReading.verdict_eq_error _ _ hi]
    | none =>
      obtain ⟨v, hv⟩ := FileReading.verdict_eq_ok p s.inventory.store.size hi
      rw [hv]

theorem analyzeFiles_concat (paths : List Path) (inv : Inventory) :
    reg.analyzeFiles t config (paths ++ [p]) inv =
      reg.analyzeNext t config (reg.analyzeFiles t config paths inv) p := by
  simp [analyzeFiles]

variable (paths : List Path) (inv : Inventory)

theorem fault_analyzeFiles :
    (reg.analyzeFiles t config paths inv).fault =
      paths.findSome? fun p ↦ (reg.reading t config p).interruption? := by
  induction paths using List.reverseRecOn with
  | nil => rfl
  | append_singleton paths p ih =>
    rw [analyzeFiles_concat, fault_analyzeNext, ih, List.findSome?_append, List.findSome?_singleton]

/-- The books of a scan: an entry for each path, which is all that the scan has come to. -/
structure Booked (s : ScanState) (entries : List ScanEntry) : Prop where
  paths : entries.map (·.path) = paths
  results : s.outcome.results = entries.filterMap (·.result?)
  failures : s.outcome.failures = entries.filterMap (·.failure?)
  skipped : s.outcome.skipped = entries.filterMap (·.skipped?)
  grows : inv.Grows s.inventory (entries.flatMap (·.added))
  stands : ∀ e ∈ entries, ∃ start, e.Stands reg t config s.inventory start

theorem Booked.next {s : ScanState} {entries : List ScanEntry}
    (h : reg.Booked t config paths inv s entries) (hs : s.fault = none)
    (hi : (reg.reading t config p).interruption? = none) :
    ∃ entries', reg.Booked t config (paths ++ [p]) inv (reg.analyzeNext t config s p) entries' := by
  obtain ⟨inv', hin, hx⟩ := reg.analyzeNext_eq t config p hs
  obtain ⟨v, hv⟩ := FileReading.verdict_eq_ok p s.inventory.store.size hi
  let e : ScanEntry := ⟨p, v, (reg.reading t config p).ids s.inventory.store.size⟩
  have he : e.Stands reg t config inv' s.inventory.store.size := by
    refine ⟨hv, rfl, hin.records, hin.grows.known, hin.used, fun _ hid ↦ ?_⟩
    rw [hin.grows.members, List.mem_append, not_or]
    exact ⟨fun hm ↦ Nat.lt_irrefl _ (s.inventory.members_known _ hm), hid⟩
  refine ⟨entries ++ [e], ?_⟩
  have hx : reg.analyzeNext t config s p =
      { inventory := inv', outcome := s.outcome.enter e.path e.verdict } := by rw [hx, hv]
  rw [hx, ScanEntry.enter_eq]
  constructor
  case paths => rw [List.map_append, h.paths, List.map_singleton]
  case results =>
    rw [List.filterMap_append, ← h.results]
    rfl
  case failures =>
    rw [List.filterMap_append, ← h.failures]
    rfl
  case skipped =>
    rw [List.filterMap_append, ← h.skipped]
    rfl
  case grows => simpa [e] using h.grows.trans hin.grows
  case stands =>
    intro e' he'
    rcases List.mem_append.1 he' with he' | he'
    · obtain ⟨start, hst⟩ := h.stands e' he'
      exact ⟨start, hst.mono hin.grows⟩
    · rw [List.mem_singleton.1 he']
      exact ⟨_, he⟩

theorem analyzeFiles_booked (h : (reg.analyzeFiles t config paths inv).fault = none) :
    ∃ entries, reg.Booked t config paths inv (reg.analyzeFiles t config paths inv) entries := by
  -- The last path is the last to be analysed, so the list is taken apart at its end.
  induction paths using List.reverseRecOn with
  | nil => exact ⟨[], rfl, rfl, rfl, rfl, .refl inv, by simp⟩
  | append_singleton paths p ih =>
    rw [analyzeFiles_concat, fault_analyzeNext, Option.or_eq_none_iff] at h
    obtain ⟨entries, hb⟩ := ih h.1
    rw [analyzeFiles_concat]
    exact hb.next reg t config p paths inv h.1 h.2

/-- The records of a scan are those of its files, one file after the other. -/
theorem records_analyzeFiles (h : (reg.analyzeFiles t config paths inv).fault = none) :
    (reg.analyzeFiles t config paths inv).inventory.records =
      inv.records ++ paths.flatMap fun p ↦ (reg.reading t config p).records := by
  obtain ⟨entries, hb⟩ := reg.analyzeFiles_booked t config paths inv h
  have hpaths : (paths.flatMap fun p ↦ (reg.reading t config p).records) =
      entries.flatMap fun e ↦ (reg.reading t config e.path).records := by
    rw [← hb.paths, List.flatMap_map]
  rw [hb.grows.records, List.map_flatMap, hpaths]
  congr 1
  refine List.flatMap_congr fun e he ↦ ?_
  obtain ⟨start, hst⟩ := hb.stands e he
  exact hst.records

end Registry

end SwiftInventory
