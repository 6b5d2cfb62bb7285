import SwiftInventory.CommandLine.Arguments
import SwiftInventory.Config.Environment
import SwiftInventory.Discovery
import SwiftInventory.Registry
import SwiftInventory.Report.Console

namespace SwiftInventory.CommandLine

open Report

inductive Crash
  | interrupted (e : Interruption)
  | unwritable (fault : FileTree.Fault)
  | nullCharacter
deriving DecidableEq

structure Outcome where
  exitCode : Nat := 0
  crash : Option Crash := none
  console : List Block := []
  stdout : String := ""
  log : List Message := []
  tree : FileTree

structure Surroundings where
  environment : Environment
  tree : FileTree
  timestamp : String
  scanTime : Double

namespace Outcome

variable (o : Outcome)

def failed (t : FileTree) (message : String) : Outcome where
  exitCode := 1
  console := [.markup ("[red]Error: " ++ message ++ "[/red]")]
  tree := t

def note (m : Message) : Outcome := { o with log := o.log ++ [m] }

def print (b : Block) : Outcome := { o with console := o.console ++ [b] }

def crashed (c : Crash) : Outcome := { o with exitCode := 1, crash := some c }

end Outcome

def infoPanel : Block :=
  .panel
    ("[bold blue]SPMShield[/bold blue]\nCollects Swift Package Manager dependency records\n" ++
      "for matching against vulnerability databases")
    (some "Information") "none" false

def infoBlocks : List Block := [
  infoPanel,
  .markup ("\n[bold]Supported Ecosystems:[/bold] " ++ ", ".intercalate Registry.builtin.ecosystems),
  .markup ("[bold]Supported Parsers:[/bold] " ++ ", ".intercalate Registry.builtin.parserTypes),
  .markup ("[bold]Supported Files:[/bold] " ++ ", ".intercalate Registry.builtin.fileNames)]

def formats : List String := ["console", "json"]

def saveText (t : FileTree) (path : Path) (text : String) : FileTree.Change :=
  t.save path (Text.Utf8.encode text.toList)

def savedMessage (path : Path) : Message := ⟨.info, "Results saved to " ++ toString path⟩

def resultMessage (r : AnalysisResult) : Message :=
  ⟨.info, toString r.filePath ++ ": " ++ toString r.records.length ++ " dependencies"⟩

def foundMessage (count : Nat) (path : Path) : Message :=
  ⟨.info, "Found " ++ toString count ++ " dependency files in " ++ toString path⟩

def failuresOf (o : ScanOutcome) : List Failure := o.failures.map fun (p, e) ↦ ⟨p, e.message⟩

def reportScan (s : Surroundings) (request : ScanRequest) (state : ScanState) (o : Outcome) :
    Outcome :=
  let records := state.inventory.records
  let failures := failuresOf state.outcome
  let json := (Report.toJson s.timestamp records failures (.double s.scanTime) []).text
  let o := { o with log := o.log ++ state.outcome.results.map resultMessage }
  let o :=
    if request.format == "json" then { o with stdout := json ++ "\n" }
    else { o with console := o.console ++ toBlocks records failures s.scanTime }
  match request.output with
  | none => o
  | some output =>
    let path := Path.ofString output
    match saveText o.tree path json with
    | ⟨tree, some fault⟩ => { o with tree }.crashed (.unwritable fault)
    | ⟨tree, none⟩ =>
      let o := { o with tree }.note (savedMessage path)
      if request.format == "console" then
        o.print (.markup ("[green]Results saved to: " ++ toString path ++ "[/green]"))
      else o

def scanRoot (s : Surroundings) (request : ScanRequest) (root : Path) : Outcome :=
  let (config, warnings) := s.environment.config
  let config := { config with ignorePatterns := config.ignorePatterns ++ request.ignore }
  let o : Outcome := { log := warnings, tree := s.tree }
  match s.tree.listing root config.ignorePatterns with
  | .error e => o.crashed (.interrupted (.pathTooLong e))
  | .ok files =>
    let state := Registry.builtin.analyzeFiles s.tree config (files.map (·.path)) {}
    let found := foundMessage files.length root
    let o := { o with log := warnings ++ found :: state.outcome.failureMessages }
    match state.fault with
    | some e => o.crashed (.interrupted e)
    | none => reportScan s request state o

def scan (s : Surroundings) (request : ScanRequest) : Outcome :=
  let root := Path.ofString request.path
  if !formats.contains request.format then
    .failed s.tree ("Unknown output format: " ++ request.format)
  else
    match s.tree.require root with
    | .error (.missing p) => .failed s.tree ("Path does not exist: " ++ toString p)
    | .error (.tooLong e) =>
      ({ tree := s.tree } : Outcome).crashed (.interrupted (.pathTooLong e))
    | .ok () => scanRoot s request root

def usageExitCode : Nat := 2

def run (s : Surroundings) (arguments : List String) : Outcome :=
  match request? arguments with
  | none => { exitCode := usageExitCode, tree := s.tree }
  | some .help => { tree := s.tree }
  | some .nullCharacter => ({ tree := s.tree } : Outcome).crashed .nullCharacter
  | some .info => { console := infoBlocks, tree := s.tree }
  | some (.scan request) => scan s request

end SwiftInventory.CommandLine
