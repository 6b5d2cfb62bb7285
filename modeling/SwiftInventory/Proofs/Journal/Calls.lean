import SwiftInventory.Proofs.Journal.Settings

namespace SwiftInventory.Journal

structure SetUp where
  level : Int
  level_pos : 0 < level
  verbose : Bool := false
  file? : Option Path := none
  tree : FileTree := .empty

namespace SetUp

def chosen (s : SetUp) : Int := if s.verbose then verboseLevel else s.level

/-- The log file, if one is asked for, can be made ready. A set-up that cannot is given up. -/
def Opens (s : SetUp) : Prop := ∀ file, s.file? = some file → ∃ tree, s.tree.openLog file = .ok tree

theorem chosen_pos (s : SetUp) : 0 < s.chosen := by
  rw [chosen]
  split
  · decide
  · exact s.level_pos

end SetUp

inductive Call
  | get (name : String)
  | setUp (s : SetUp)
  | log (name : String) (m : Message)

/-- The loggers after a call, and what it writes. -/
def call (j : Journal) : Call → Journal × List Message
  | .get name => (j.wrap name defaultLevel, [])
  | .setUp s =>
    match j.setupIn s.tree s.level s.verbose s.file? with
    | .ok (j, _) => (j, [])
    | .error _ => (j, [])
  | .log name m => (j, j.emit name m)

/-- The calls made so far, the last one first, whatever loggers there were before. -/
def after (start : Journal) : List Call → Journal
  | [] => start
  | c :: history => ((after start history).call c).1

/-- A call that no logger of this name gets a level from. -/
def Call.SetsNothing (name : String) (c : Call) : Prop :=
  c ≠ .get name ∧ ∀ s, c = .setUp s → ¬ s.Opens

/-- The level of a logger was set last by a call that asked for the logger, or by a set-up made when
the logger was there. -/
inductive LastSet (name : String) : List Call → Int → Prop
  | get {history : List Call} : LastSet name (.get name :: history) defaultLevel
  | setUp {history : List Call} {s : SetUp} (got : .get name ∈ history) (opens : s.Opens) :
      LastSet name (.setUp s :: history) s.chosen
  | kept {history : List Call} {c : Call} {level : Int} (h : LastSet name history level)
      (hc : c.SetsNothing name) : LastSet name (c :: history) level

variable {j start : Journal} {name : String} {level : Int} {s : SetUp} {c : Call}
  {history : List Call}

theorem LastSet.unique {other : Int} (h : LastSet name history level)
    (h' : LastSet name history other) : other = level := by
  induction h with
  | get =>
    cases h' with
    | get => rfl
    | kept h' hc => exact absurd rfl hc.1
  | setUp got opens =>
    cases h' with
    | setUp got' opens' => rfl
    | kept h' hc => exact absurd opens (hc.2 _ rfl)
  | kept h hc ih =>
    cases h' with
    | get => exact absurd rfl hc.1
    | setUp got opens => exact absurd opens (hc.2 _ rfl)
    | kept h' hc' => exact ih h'

theorem call_setUp_of_opens (h : s.Opens) :
    (j.call (.setUp s)).1 = j.setup s.level s.verbose s.file?.isSome := by
  rw [call]
  cases hfile : s.file? with
  | none => rfl
  | some file =>
    obtain ⟨tree, htree⟩ := h file hfile
    rw [setupIn, htree]
    rfl

theorem call_setUp_of_not_opens (h : ¬ s.Opens) : (j.call (.setUp s)).1 = j := by
  rw [call]
  cases hfile : s.file? with
  | none =>
    apply absurd _ h
    intro file hsome
    cases hfile.symm.trans hsome
  | some file =>
    rw [setupIn]
    cases htree : s.tree.openLog file with
    | error fault => rfl
    | ok tree =>
      apply absurd _ h
      intro other hsome
      cases hfile.symm.trans hsome
      exact ⟨tree, htree⟩

theorem keeps_get (own : programPrefix.toList <+: name.toList) :
    (j.call (.get name)).1.Keeps name defaultLevel := keeps_wrap_self (not_isRoot own)

theorem Keeps.call_setUp (h : j.Keeps name level) (own : programPrefix.toList <+: name.toList)
    (opens : s.Opens) : (j.call (.setUp s)).1.Keeps name s.chosen := by
  rw [call_setUp_of_opens opens]
  exact h.setup own s.level s.verbose s.file?.isSome

theorem Keeps.call_of_setsNothing (h : j.Keeps name level)
    (own : programPrefix.toList <+: name.toList) (hc : c.SetsNothing name) :
    (j.call c).1.Keeps name level := by
  cases c with
  | get other =>
    have hne : name ≠ other := by
      rintro rfl
      exact hc.1 rfl
    exact h.wrap_of_ne (not_isRoot own) hne defaultLevel
  | setUp s =>
    rw [call_setUp_of_not_opens (hc.2 s rfl)]
    exact h
  | log other m => exact h

/-- Nothing but the last level set matters to a logger that was asked for. -/
theorem exists_lastSet (start : Journal) (own : programPrefix.toList <+: name.toList)
    (got : .get name ∈ history) :
    ∃ level, LastSet name history level ∧ 0 < level ∧ (after start history).Keeps name level := by
  induction history with
  | nil => cases got
  | cons c history ih =>
    by_cases hget : c = .get name
    · subst hget
      exact ⟨defaultLevel, .get, by decide, keeps_get own⟩
    · have hbefore : .get name ∈ history := List.mem_of_ne_of_mem (Ne.symm hget) got
      obtain ⟨level, hlast, hpos, hkeeps⟩ := ih hbefore
      by_cases hopens : ∃ s, c = .setUp s ∧ s.Opens
      · obtain ⟨s, rfl, opens⟩ := hopens
        exact ⟨s.chosen, .setUp hbefore opens, s.chosen_pos, hkeeps.call_setUp own opens⟩
      · have hc : c.SetsNothing name := ⟨hget, fun s hs opens ↦ hopens ⟨s, hs, opens⟩⟩
        exact ⟨level, .kept hlast hc, hpos, hkeeps.call_of_setsNothing own hc⟩

/-- After any calls, a message through a logger that was asked for is written once if its severity
comes up to the last level set, and not at all otherwise. -/
theorem log_writes_once (start : Journal) (own : programPrefix.toList <+: name.toList)
    (got : .get name ∈ history) (m : Message) :
    ∃ level, LastSet name history level ∧ (∀ other, LastSet name history other → other = level) ∧
      ((after start history).call (.log name m)).2 =
        if level ≤ m.severity.rank then [⟨m.severity, name ++ ": " ++ m.text⟩] else [] := by
  obtain ⟨level, hlast, hpos, hkeeps⟩ := exists_lastSet start own got
  refine ⟨level, hlast, fun other hother ↦ hlast.unique hother, ?_⟩
  exact hkeeps.emit (by omega) (not_isRoot own) m

/-- A logger is asked for twice, with the logger above it in between. The last set-up keeps a file
that cannot be written, so that the level is still the one of the set-up before. -/
def busyHistory : List Call :=
  [.setUp { level := 40, level_pos := by decide, file? := some (.ofString "missing/scan.log") },
    .setUp { level := 30, level_pos := by decide }, .get "spm_shield.core.scanner",
    .log "spm_shield.core.scanner" ⟨.info, "Scanning"⟩, .get "spm_shield.core",
    .get "spm_shield.core.scanner"]

theorem lastSet_busyHistory : LastSet "spm_shield.core.scanner" busyHistory 30 := by
  apply LastSet.kept
  · apply LastSet.setUp (s := { level := 30, level_pos := by decide })
    · exact List.mem_cons_self
    · intro file hfile
      cases hfile
  · constructor
    · intro h
      cases h
    · intro s hs opens
      cases hs
      obtain ⟨tree, htree⟩ := opens _ rfl
      have hfault : (FileTree.empty.openLog (.ofString "missing/scan.log")).isOk = false := by
        decide +kernel
      rw [htree] at hfault
      cases hfault

theorem scanner_writes_once :
    programPrefix.toList <+: "spm_shield.core.scanner".toList ∧
    .get "spm_shield.core.scanner" ∈ busyHistory ∧
    ((after {} busyHistory).call (.log "spm_shield.core.scanner" ⟨.warning, "Too large"⟩)).2 =
      [⟨.warning, "spm_shield.core.scanner: Too large"⟩] ∧
    ((after {} busyHistory).call (.log "spm_shield.core.scanner" ⟨.info, "Scanned"⟩)).2 = [] := by
  have own : programPrefix.toList <+: "spm_shield.core.scanner".toList := by decide
  have got : .get "spm_shield.core.scanner" ∈ busyHistory := by simp [busyHistory]
  refine ⟨own, got, ?_, ?_⟩
  · obtain ⟨level, -, hunique, hlog⟩ := log_writes_once {} own got ⟨.warning, "Too large"⟩
    rw [hlog, ← hunique 30 lastSet_busyHistory]
    decide +kernel
  · obtain ⟨level, -, hunique, hlog⟩ := log_writes_once {} own got ⟨.info, "Scanned"⟩
    rw [hlog, ← hunique 30 lastSet_busyHistory]
    decide +kernel

end SwiftInventory.Journal
