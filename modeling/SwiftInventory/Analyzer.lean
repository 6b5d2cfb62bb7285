import SwiftInventory.Contents
import SwiftInventory.Inventory
import SwiftInventory.Lock.Reading
import SwiftInventory.Manifest.Reading

namespace SwiftInventory

inductive FileKind
  | manifest
  | lock
deriving DecidableEq

/-- Files are matched by their exact name. `parserType` decides whether the analyzer is enabled. -/
structure Analyzer where
  kind : FileKind
  name : String
  parserType : String
  fileNames : List String
deriving DecidableEq

structure AnalysisResult where
  analyzer : String
  filePath : Path
  records : List RecordId := []
  removed : List RecordId := []
  declared : Bool := false
  namedAfterFolder : Bool := false
  genericIdentifier : Bool := false
deriving DecidableEq

/-- What no scan goes on after: a nameless package URL, or a path too long to be looked up. -/
inductive Interruption
  | slashesOnly (e : SlashesOnly)
  | pathTooLong (e : PathTooLong)
deriving DecidableEq

inductive AnalysisFault
  | unreadable (e : Unreadable)
  | interrupted (e : Interruption)
deriving DecidableEq

def AnalysisFault.ofRead : ReadFault → AnalysisFault
  | .unreadable e => .unreadable e
  | .pathTooLong e => .interrupted (.pathTooLong e)

def AnalysisFault.ofSlashes (e : SlashesOnly) : AnalysisFault := .interrupted (.slashesOnly e)

namespace Analyzer

def manifest : Analyzer :=
  ⟨.manifest, "SWIFT Package Manager Analyzer", "manifest", [Manifest.fileName]⟩

def lock : Analyzer :=
  ⟨.lock, "SWIFT Package Resolved Analyzer", "resolved", [Lock.fileName]⟩

def ofKind : FileKind → Analyzer
  | .manifest => manifest
  | .lock => lock

variable (a : Analyzer)

def canAnalyze (p : Path) : Bool := a.fileNames.contains p.name

def extractManifest (current : Location) (id : RecordId) (contents : String) (inv : Inventory) :
    Inventory × Except SlashesOnly AnalysisResult :=
  let r := inv.get id
  let (r', found) := Manifest.extract current r contents
  let inv := inv.set id r'
  match found with
  | .error fault => (inv, .error fault)
  | .ok found => (inv, .ok {
      analyzer := a.name
      filePath := r.filePath
      records := if found.listed then [id] else []
      declared := found.declared
      namedAfterFolder := found.namedAfterFolder
      genericIdentifier := found.genericIdentifier })

def analyzeManifest (t : FileTree) (config : ScanConfig) (id : RecordId) (inv : Inventory) :
    Inventory × Except AnalysisFault AnalysisResult :=
  match t.contents config (inv.get id).actualFile with
  | .error e => (inv, .error (.ofRead e))
  | .ok contents =>
    let (inv, result) := a.extractManifest t.current id contents inv
    (inv, result.mapError .ofSlashes)

/-- The record of a lock file is no dependency: it leaves the collection before the file is read,
and one record for each pin takes its place. -/
def analyzeLock (t : FileTree) (config : ScanConfig) (id : RecordId) (inv : Inventory) :
    Inventory × Except AnalysisFault AnalysisResult :=
  let r := inv.get id
  let removed := if inv.collection.contains id then [id] else []
  let inv := inv.remove id
  match t.contents config r.actualFile with
  | .error e => (inv, .error (.ofRead e))
  | .ok contents =>
    match Lock.extract r.actualFile contents with
    | .error e => (inv, .error (.ofSlashes e))
    | .ok rs =>
      let (ids, inv) := inv.addRecords rs
      (inv, .ok {
        analyzer := a.name
        filePath := r.filePath
        records := ids
        removed := removed })

def analyze (t : FileTree) (config : ScanConfig) (id : RecordId) (inv : Inventory) :
    Inventory × Except AnalysisFault AnalysisResult :=
  match a.kind with
  | .manifest => a.analyzeManifest t config id inv
  | .lock => a.analyzeLock t config id inv

end Analyzer

end SwiftInventory
