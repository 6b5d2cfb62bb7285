import SwiftInventory.Proofs.Manifest.Extraction
import SwiftInventory.Proofs.Scan.Run

namespace SwiftInventory

def ScanConfig.kindOf? (config : ScanConfig) (p : Path) : Option FileKind :=
  if p.name = Manifest.fileName then if config.manifestEnabled then some .manifest else none
  else if p.name = Lock.fileName then if config.lockEnabled then some .lock else none
  else none

variable {t : FileTree} {config : ScanConfig} {p : Path}

theorem mem_fileNames_of_kindOf? {kind : FileKind} (h : config.kindOf? p = some kind) :
    p.name ∈ (Analyzer.ofKind kind).fileNames := by
  rw [ScanConfig.kindOf?] at h
  split at h
  · rename_i hname
    split at h <;> cases h
    exact List.mem_singleton.2 hname
  · split at h
    · rename_i hname
      split at h <;> cases h
      exact List.mem_singleton.2 hname
    · cases h

theorem builtin_find? :
    Registry.builtin.find? p =
      if p.name = Manifest.fileName then some .manifest
      else if p.name = Lock.fileName then some .lock
      else none := by
  have ha : Registry.builtin.analyzers = [.manifest, .lock] := rfl
  have hm : Analyzer.manifest.canAnalyze p = decide (p.name = Manifest.fileName) := by
    simp [Analyzer.canAnalyze, Analyzer.manifest]
  have hl : Analyzer.lock.canAnalyze p = decide (p.name = Lock.fileName) := by
    simp [Analyzer.canAnalyze, Analyzer.lock]
  rw [Registry.find?, ha, List.find?_cons, List.find?_cons, List.find?_nil, hm, hl]
  by_cases h : p.name = Manifest.fileName
  · rw [if_pos h, decide_eq_true h]
  · rw [if_neg h, decide_eq_false h]
    by_cases h' : p.name = Lock.fileName
    · rw [if_pos h', decide_eq_true h']
    · rw [if_neg h', decide_eq_false h']

theorem builtin_taker? :
    Registry.builtin.taker? config p = (config.kindOf? p).map Analyzer.ofKind := by
  have hm : config.isEnabled Analyzer.manifest.parserType = config.manifestEnabled := rfl
  have hl : config.isEnabled Analyzer.lock.parserType = config.lockEnabled := rfl
  rw [Registry.taker?, builtin_find?, ScanConfig.kindOf?]
  split
  · cases h : config.manifestEnabled <;> simp [h, hm, Analyzer.ofKind]
  · split
    · cases h : config.lockEnabled <;> simp [h, hl, Analyzer.ofKind]
    · rfl

theorem builtin_reading_of_none (h : config.kindOf? p = none) :
    Registry.builtin.reading t config p = .untaken := by
  rw [Registry.reading, builtin_taker?, h, Option.map_none]

theorem builtin_reading_of_some {kind : FileKind} (h : config.kindOf? p = some kind) :
    Registry.builtin.reading t config p = (Analyzer.ofKind kind).reading t config p := by
  rw [Registry.reading, builtin_taker?, h, Option.map_some]

/-- The ways in which a scan comes past a file. -/
inductive ReadThrough (t : FileTree) (config : ScanConfig) (p : Path) : FileReading → Prop
  | untaken (h : config.kindOf? p = none) : ReadThrough t config p .untaken
  | unread {kind : FileKind} {e : Unreadable} (h : config.kindOf? p = some kind)
      (hc : t.contents config p = .error (.unreadable e)) : ReadThrough t config p (.unread e)
  | manifest {contents : String} {r : Record} {found : Manifest.Findings}
      (h : config.kindOf? p = some .manifest) (hc : t.contents config p = .ok contents)
      (hx : Manifest.extract t.current (.ofFile p false) contents = (r, .ok found)) :
      ReadThrough t config p (.manifest Analyzer.manifest.name r (.ok found))
  | lock {contents : String} {rs : List Record}
      (h : config.kindOf? p = some .lock) (hc : t.contents config p = .ok contents)
      (hx : Lock.extract p contents = .ok rs) :
      ReadThrough t config p (.lock Analyzer.lock.name (.ok rs))

theorem readThrough (h : (Registry.builtin.reading t config p).interruption? = none) :
    ReadThrough t config p (Registry.builtin.reading t config p) := by
  cases hk : config.kindOf? p with
  | none =>
    rw [builtin_reading_of_none hk]
    exact .untaken hk
  | some kind =>
    rw [builtin_reading_of_some hk] at h ⊢
    cases hc : t.contents config p with
    | error fault =>
      cases fault with
      | unreadable e =>
        rw [Analyzer.reading_of_unreadable _ hc]
        exact .unread hk hc
      | pathTooLong e =>
        rw [Analyzer.interruption_of_pathTooLong _ hc] at h
        cases h
    | ok contents =>
      cases kind with
      | manifest =>
        cases hx : Manifest.extract t.current (.ofFile p false) contents with | mk r found =>
        rw [Analyzer.reading_of_manifest _ rfl hc, hx] at h ⊢
        cases found with
        | error e => cases h
        | ok found => exact .manifest hk hc hx
      | lock =>
        rw [Analyzer.reading_of_lock _ rfl hc] at h ⊢
        cases hx : Lock.extract p contents with
        | error e =>
          rw [hx] at h
          cases h
        | ok rs => exact .lock hk hc hx

namespace FileTree

def ofTexts (files : List (String × String)) : FileTree :=
  files.foldl (fun t (p, text) ↦ (t.save (.ofString p) (Text.Utf8.encode text.toList)).tree) .empty

end FileTree

end SwiftInventory
