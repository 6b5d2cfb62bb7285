import SwiftInventory.Proofs.FirstOccurrence
import SwiftInventory.Proofs.Scan.Builtin

namespace SwiftInventory

abbrev Registration := RegistryKey × Analyzer

namespace Registration

variable {history : List Registration} {key key' : RegistryKey} {a a' : Analyzer}

def latest? (history : List Registration) (key : RegistryKey) : Option Analyzer :=
  history.reverse.lookup key

def firstPlace (history : List Registration) (key : RegistryKey) : Nat :=
  (history.map (·.1)).idxOf key

theorem latest?_concat (r : Registration) :
    latest? (history ++ [r]) key = if key = r.1 then some r.2 else latest? history key := by
  rw [latest?, List.reverse_append, List.reverse_singleton, List.singleton_append]
  by_cases h : key = r.1
  · rw [if_pos h, h, List.lookup_cons_self]
  · have hkey : (key == r.1) = false := beq_eq_false_iff_ne.2 h
    rw [if_neg h, List.lookup_cons, hkey, latest?]

theorem latest?_isSome : (latest? history key).isSome = true ↔ key ∈ history.map (·.1) := by
  induction history using List.reverseRecOn with
  | nil => simp [latest?]
  | append_singleton history r ih =>
    rw [latest?_concat, List.map_append, List.mem_append, ← ih]
    by_cases h : key = r.1 <;> simp [h]

theorem mem_of_latest? (h : latest? history key = some a) : key ∈ history.map (·.1) :=
  latest?_isSome.1 (by rw [h]; rfl)

/-- An analyzer is the latest one of its key and takes the files with a name, and no such analyzer
has a key that was registered earlier. -/
def IsFirstFor (history : List Registration) (name : String) (a : Analyzer) : Prop :=
  ∃ key, latest? history key = some a ∧ name ∈ a.fileNames ∧
    ∀ key' a', latest? history key' = some a' → name ∈ a'.fileNames →
      firstPlace history key ≤ firstPlace history key'

theorem IsFirstFor.unique {name : String} (h : IsFirstFor history name a)
    (h' : IsFirstFor history name a') : a = a' := by
  obtain ⟨key, ha, hname, hfirst⟩ := h
  obtain ⟨key', ha', hname', hfirst'⟩ := h'
  have hplace : firstPlace history key = firstPlace history key' :=
    Nat.le_antisymm (hfirst key' a' ha' hname') (hfirst' key a ha hname)
  have hkey : key = key' := (List.idxOf_inj (mem_of_latest? ha)).1 hplace
  rw [hkey, ha'] at ha
  exact (Option.some.inj ha).symm

end Registration

namespace Registry

open Registration

variable {history : List Registration} {reg : Registry} {key : RegistryKey} {a : Analyzer}
  {p : Path} {name : String}

def ofHistory (history : List Registration) : Registry :=
  history.foldl (fun reg r ↦ reg.register r.1 r.2) {}

/-- What registrations leave in a registry. -/
structure Records (reg : Registry) (history : List Registration) : Prop where
  keys : reg.entries.map (·.1) = (history.map (·.1)).eraseDups
  latest : ∀ e ∈ reg.entries, latest? history e.1 = some e.2
  ecosystems : reg.ecosystems = (history.map (·.1.ecosystem)).eraseDups

theorem Records.mem_keys (h : reg.Records history) :
    key ∈ reg.entries.map (·.1) ↔ key ∈ history.map (·.1) := by
  rw [h.keys, List.mem_eraseDups]

theorem Records.any_key (h : reg.Records history) :
    reg.entries.any (·.1 == key) = true ↔ key ∈ history.map (·.1) := by
  rw [← h.mem_keys]
  simp

theorem Records.entries_register (h : reg.Records history) (key : RegistryKey) (a : Analyzer) :
    (reg.register key a).entries =
      if key ∈ history.map (·.1) then
        reg.entries.map fun e ↦ if e.1 = key then (key, a) else e
      else reg.entries ++ [(key, a)] := by
  rw [Registry.register]
  by_cases hkey : key ∈ history.map (·.1)
  · rw [h.any_key.2 hkey, if_pos hkey]
    simp
  · have hnone : reg.entries.any (·.1 == key) = false :=
      Bool.eq_false_iff.2 fun hany ↦ hkey (h.any_key.1 hany)
    rw [hnone, if_neg hkey]
    rfl

theorem Records.register (h : reg.Records history) (r : Registration) :
    (reg.register r.1 r.2).Records (history ++ [r]) := by
  obtain ⟨key, a⟩ := r
  constructor
  case keys =>
    rw [List.map_append, List.map_singleton, eraseDups_concat, ← h.keys, h.entries_register]
    split
    · -- A new analyzer takes the place of the one before it, under the same key.
      have hsame (e : RegistryKey × Analyzer) : (if e.1 = key then (key, a) else e).1 = e.1 := by
        by_cases he : e.1 = key <;> simp [he]
      simp only [List.map_map, Function.comp_def, hsame]
    · rw [List.map_append, List.map_singleton]
  case latest =>
    intro e he
    rw [latest?_concat]
    rw [h.entries_register] at he
    split at he
    · obtain ⟨e', he', rfl⟩ := List.mem_map.1 he
      by_cases heq : e'.1 = key
      · simp [heq]
      · simpa [heq] using h.latest e' he'
    · next hkey =>
      rcases List.mem_append.1 he with he | he
      · have hne : e.1 ≠ key := fun heq ↦
          hkey (h.mem_keys.1 (List.mem_map.2 ⟨e, he, heq⟩))
        rw [if_neg hne]
        exact h.latest e he
      · rw [List.mem_singleton.1 he, if_pos rfl]
  case ecosystems =>
    rw [List.map_append, List.map_singleton, eraseDups_concat, ← h.ecosystems, Registry.register]
    have hmem : key.ecosystem ∈ reg.ecosystems ↔ key.ecosystem ∈ history.map (·.1.ecosystem) := by
      rw [h.ecosystems, List.mem_eraseDups]
    simp [← hmem]

theorem records_ofHistory (history : List Registration) :
    (ofHistory history).Records history := by
  induction history using List.reverseRecOn with
  | nil => exact ⟨rfl, by simp [ofHistory], rfl⟩
  | append_singleton history r ih =>
    rw [ofHistory, List.foldl_append]
    exact ih.register r

theorem Records.mem_iff (h : reg.Records history) :
    (key, a) ∈ reg.entries ↔ latest? history key = some a := by
  constructor
  · exact h.latest (key, a)
  · intro ha
    obtain ⟨e, he, rfl⟩ := List.mem_map.1 (h.mem_keys.2 (mem_of_latest? ha))
    obtain rfl : e.2 = a := Option.some.inj ((h.latest e he).symm.trans ha)
    exact he

theorem Records.get? (h : reg.Records history) : reg.get? key = latest? history key := by
  rw [Registry.get?]
  cases hl : reg.entries.lookup key with
  | some a =>
    obtain ⟨front, back, hentries, -⟩ := List.lookup_eq_some_iff.1 hl
    exact (h.mem_iff.1 (by simp [hentries])).symm
  | none =>
    cases hlatest : latest? history key with
    | none => rfl
    | some a =>
      have hne := List.lookup_eq_none_iff.1 hl _ (h.mem_iff.2 hlatest)
      simp at hne

theorem Records.ordered (h : reg.Records history) :
    reg.entries.Pairwise fun e e' ↦ firstPlace history e.1 < firstPlace history e'.1 := by
  have hkeys := pairwise_eraseDups (history.map (·.1))
  rwa [← h.keys, List.pairwise_map] at hkeys

theorem canAnalyze_iff : a.canAnalyze p = true ↔ p.name ∈ a.fileNames := List.contains_iff_mem

theorem fileNames_eq (reg : Registry) :
    reg.fileNames = (reg.analyzers.flatMap (·.fileNames)).eraseDups :=
  foldl_eq_eraseDups _

theorem find?_isSome (reg : Registry) (p : Path) :
    (reg.find? p).isSome = true ↔ p.name ∈ reg.fileNames := by
  rw [find?, List.find?_isSome, fileNames_eq, List.mem_eraseDups, List.mem_flatMap]
  simp only [canAnalyze_iff]

theorem Records.isFirstFor_of_find? (h : reg.Records history) (hf : reg.find? p = some a) :
    IsFirstFor history p.name a := by
  rw [find?, analyzers, List.find?_map, Option.map_eq_some_iff] at hf
  obtain ⟨⟨key, a'⟩, he, rfl⟩ := hf
  obtain ⟨htakes, before, after, hentries, hbefore⟩ := List.find?_eq_some_iff_append.1 he
  have hlatest : latest? history key = some a' := h.mem_iff.1 (by simp [hentries])
  refine ⟨key, hlatest, canAnalyze_iff.1 htakes, fun key' a'' hlatest' hname' ↦ ?_⟩
  -- The entries stand in the order of their first places, so only those before could be earlier.
  have hmem := h.mem_iff.2 hlatest'
  have hordered := h.ordered
  rw [hentries] at hmem hordered
  rcases List.mem_append.1 hmem with hmem | hmem
  · have hnot := hbefore _ hmem
    rw [Function.comp_apply, canAnalyze_iff.2 hname'] at hnot
    cases hnot
  · rcases List.mem_cons.1 hmem with heq | hmem
    · rw [(Prod.mk.inj heq).1]
    · have hafter := (List.pairwise_cons.1 (List.pairwise_append.1 hordered).2.1).1
      exact Nat.le_of_lt (hafter _ hmem)

theorem Records.find?_eq_some (h : reg.Records history) :
    reg.find? p = some a ↔ IsFirstFor history p.name a := by
  refine ⟨h.isFirstFor_of_find?, fun hfirst ↦ ?_⟩
  obtain ⟨key, ha, hname, -⟩ := id hfirst
  have hsome : (reg.find? p).isSome = true := by
    rw [find?, List.find?_isSome]
    exact ⟨a, List.mem_map.2 ⟨_, h.mem_iff.2 ha, rfl⟩, canAnalyze_iff.2 hname⟩
  obtain ⟨b, hb⟩ := Option.isSome_iff_exists.1 hsome
  rw [hb, (h.isFirstFor_of_find? hb).unique hfirst]

section Analysis

variable {t : FileTree} {config : ScanConfig} {inv : Inventory}

theorem taker?_eq_none :
    reg.taker? config p = none ↔
      reg.find? p = none ∨ ∃ a, reg.find? p = some a ∧ config.isEnabled a.parserType = false := by
  rw [taker?]
  cases reg.find? p <;> simp

theorem analyzeFile_eq_none :
    (reg.analyzeFile t config p inv).2 = .ok none ↔ reg.taker? config p = none := by
  constructor
  · intro h
    by_contra hsome
    obtain ⟨a, ha⟩ := Option.ne_none_iff_exists'.1 hsome
    rw [reg.analyzeFile_of_taken ha] at h
    split at h <;> cases h
  · intro h
    rw [reg.analyzeFile_of_untaken h]

theorem ids_of_answer {reading : FileReading} {start : RecordId}
    (h : Verdict.answer (reading.verdict p start) = .ok none ∨
      ∃ e, Verdict.answer (reading.verdict p start) = .error (.unreadable e)) :
    reading.ids start = [] := by
  cases reading with
  | untaken => rfl
  | unread e => rfl
  | manifest name r found => cases found <;> simp [FileReading.verdict, Verdict.answer] at h
  | lock name found => cases found <;> simp [FileReading.verdict, Verdict.answer] at h

theorem analyzeFile_leaves (h : (reg.analyzeFile t config p inv).2 = .ok none ∨
      ∃ e, (reg.analyzeFile t config p inv).2 = .error (.unreadable e)) :
    (reg.analyzeFile t config p inv).1.collection = inv.collection ∧
      (reg.analyzeFile t config p inv).1.records = inv.records := by
  obtain ⟨inv', hx, hin⟩ := reg.analyzeFile_eq t config p inv
  rw [hx] at h ⊢
  have hgrows := hin.grows
  rw [ids_of_answer h] at hgrows
  refine ⟨?_, by simpa using hgrows.records⟩
  have hmembers := hgrows.members
  rw [List.append_nil] at hmembers
  exact congrArg Collection.mk hmembers

end Analysis

/-- The views of a registry agree whatever was registered with it. A file is dispatched by its name to
the latest analyzer of the key that was registered first, and is analysed if the analyzer itself is
of an enabled type; otherwise, or if it cannot be read, the collection stays as it was. -/
theorem dispatch_agrees (history : List Registration) :
    (ofHistory history).fileNames.Nodup ∧
    (∀ p, ((ofHistory history).find? p).isSome = true ↔ p.name ∈ (ofHistory history).fileNames) ∧
    (∀ p a, (ofHistory history).find? p = some a ↔ IsFirstFor history p.name a) ∧
    (∀ key, (ofHistory history).get? key = latest? history key) ∧
    (ofHistory history).ecosystems = (history.map (·.1.ecosystem)).eraseDups ∧
    ∀ (t : FileTree) (config : ScanConfig) (p : Path) (inv : Inventory),
      (((ofHistory history).analyzeFile t config p inv).2 = .ok none ↔
        (ofHistory history).find? p = none ∨
          ∃ a, (ofHistory history).find? p = some a ∧ config.isEnabled a.parserType = false) ∧
      ((((ofHistory history).analyzeFile t config p inv).2 = .ok none ∨
          ∃ e, ((ofHistory history).analyzeFile t config p inv).2 = .error (.unreadable e)) →
        ((ofHistory history).analyzeFile t config p inv).1.collection = inv.collection ∧
        ((ofHistory history).analyzeFile t config p inv).1.records = inv.records) := by
  have h := records_ofHistory history
  refine ⟨?_, find?_isSome _, fun p a ↦ h.find?_eq_some, fun key ↦ h.get?, h.ecosystems, ?_⟩
  · rw [fileNames_eq]
    exact nodup_eraseDups _
  · intro t config p inv
    exact ⟨analyzeFile_eq_none.trans taker?_eq_none, analyzeFile_leaves⟩

def overlapping : List Registration := [
  (⟨"swift", "manifest"⟩, .manifest),
  (⟨"objc", "pods"⟩, { Analyzer.lock with fileNames := ["Package.swift", "Podfile"] }),
  (⟨"swift", "manifest"⟩, { Analyzer.lock with fileNames := ["Package.swift", "Package.swift"] })]

theorem overlapping_left_alone :
    let inv := ({} : Inventory).opened (.ofString "Podfile")
    let analyzed := (ofHistory overlapping).analyzeFile (.ofTexts []) {} (.ofString "Package.swift") inv
    analyzed.2 = .error (.unreadable ⟨.ofString "Package.swift", .missing⟩) ∧
    analyzed.1.collection = inv.collection ∧ analyzed.1.records = inv.records := by
  intro inv analyzed
  have hfault : analyzed.2 = .error (.unreadable ⟨.ofString "Package.swift", .missing⟩) := by
    decide +kernel
  obtain ⟨-, -, -, -, -, hanalyzed⟩ := dispatch_agrees overlapping
  exact ⟨hfault, (hanalyzed (.ofTexts []) {} _ inv).2 (.inr ⟨_, hfault⟩)⟩

end Registry

end SwiftInventory
