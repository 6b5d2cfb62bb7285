import SwiftInventory.Analyzer
import SwiftInventory.Message

namespace SwiftInventory

structure RegistryKey where
  ecosystem : String
  parserType : String
deriving DecidableEq

/-- A key keeps the place of its first registration, and so does an ecosystem. -/
structure Registry where
  entries : List (RegistryKey × Analyzer) := []
  ecosystems : List String := []

namespace Registry

variable (reg : Registry)

def register (key : RegistryKey) (a : Analyzer) : Registry where
  entries :=
    if reg.entries.any (·.1 == key) then
      reg.entries.map fun e ↦ if e.1 == key then (key, a) else e
    else reg.entries ++ [(key, a)]
  ecosystems :=
    if reg.ecosystems.contains key.ecosystem then reg.ecosystems
    else reg.ecosystems ++ [key.ecosystem]

def get? (key : RegistryKey) : Option Analyzer := reg.entries.lookup key

def analyzers : List Analyzer := reg.entries.map (·.2)

def find? (p : Path) : Option Analyzer := reg.analyzers.find? (·.canAnalyze p)

def parserTypes : List String := reg.entries.map (·.1.parserType)

def fileNames : List String :=
  (reg.analyzers.flatMap (·.fileNames)).foldl
    (fun names name ↦ if names.contains name then names else names ++ [name]) []

def builtin : Registry :=
  (({} : Registry).register ⟨"swift", "manifest"⟩ .manifest).register ⟨"swift", "resolved"⟩ .lock

/-- Analyses one file by way of a record for it, which is taken back if the file cannot be read.
Without an enabled analyzer for the file there is no result. -/
def analyzeFile (t : FileTree) (config : ScanConfig) (p : Path) (inv : Inventory) :
    Inventory × Except AnalysisFault (Option AnalysisResult) :=
  match reg.find? p with
  | none => (inv, .ok none)
  | some a =>
    if !config.isEnabled a.parserType then (inv, .ok none)
    else
      let (id, inv) := inv.addRecord (.ofFile p false)
      match a.analyze t config id inv with
      | (inv, .ok result) => (inv, .ok (some result))
      | (inv, .error (.unreadable e)) => (inv.remove id, .error (.unreadable e))
      | (inv, .error fault) => (inv, .error fault)

end Registry

structure ScanOutcome where
  results : List AnalysisResult := []
  failures : List (Path × Unreadable) := []
  skipped : List Path := []

namespace ScanOutcome

variable (o : ScanOutcome)

def addResult (r : AnalysisResult) : ScanOutcome := { o with results := o.results ++ [r] }

def addFailure (p : Path) (e : Unreadable) : ScanOutcome :=
  { o with failures := o.failures ++ [(p, e)] }

def addSkipped (p : Path) : ScanOutcome := { o with skipped := o.skipped ++ [p] }

def failureMessages : List Message :=
  o.failures.map fun (p, e) ↦ ⟨.error, "Failed to analyze " ++ toString p ++ ": " ++ e.message⟩

end ScanOutcome

/-- The state of a scan. A fault that ends it comes with all that was done before. -/
structure ScanState where
  inventory : Inventory := {}
  outcome : ScanOutcome := {}
  fault : Option Interruption := none

namespace Registry

variable (reg : Registry)

def analyzeNext (t : FileTree) (config : ScanConfig) (s : ScanState) (p : Path) : ScanState :=
  if s.fault.isSome then s
  else
    match reg.analyzeFile t config p s.inventory with
    | (inv, .ok (some result)) =>
      { s with inventory := inv, outcome := s.outcome.addResult result }
    | (inv, .ok none) => { s with inventory := inv, outcome := s.outcome.addSkipped p }
    | (inv, .error (.unreadable e)) =>
      { s with inventory := inv, outcome := s.outcome.addFailure p e }
    | (inv, .error (.interrupted e)) => { s with inventory := inv, fault := some e }

def analyzeFiles (t : FileTree) (config : ScanConfig) (paths : List Path) (inv : Inventory) :
    ScanState :=
  paths.foldl (reg.analyzeNext t config) { inventory := inv }

end Registry

end SwiftInventory
