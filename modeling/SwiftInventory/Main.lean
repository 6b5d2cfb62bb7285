import Std.Time
import SwiftInventory.CommandLine.Run
import SwiftInventory.Report.Plain

namespace SwiftInventory.Program

def usage : String :=
  "Usage: spm-shield scan [--output FILE] [--format console|json] [--verbose] " ++
    "[--ignore PATTERN] [PATH]\n       spm-shield info"

/-- An entry with the folders around it, as far as the tree has room for them. -/
def withEntry (t : FileTree) (p : Path) (e : Entry) : FileTree :=
  match e with
  | .folder => (t.makeFolders p).tree
  | .file octets => (t.save p octets).tree

def isFile (kind : IO.FS.FileType) : Bool := kind matches .file

def kindAt (p : Path) : IO (Option IO.FS.FileType) := do
  let place := (← IO.currentDir) / toString p
  try return some (← place.metadata).type catch _ => return none

def loadFile (t : FileTree) (p : Path) : IO FileTree := do
  let place := (← IO.currentDir) / toString p
  try return withEntry t p (.file (← IO.FS.readBinFile place).toList)
  catch _ => return (withEntry t p (.file [])).forbid p

/-- Takes in the dependency files below a folder. Links to folders are not followed. -/
partial def loadFolder (t : FileTree) (p : Path) : IO FileTree := do
  let mut t := withEntry t p .folder
  for entry in ← ((← IO.currentDir) / toString p).readDir do
    if let some part := Path.Part.ofText? entry.fileName then
      let inner := p.append [part]
      if (← entry.path.symlinkMetadata).type matches .dir then t ← loadFolder t inner
      else if (DependencyFile.ofPath? inner).isSome then
        if ((← kindAt inner).map isFile).getD false then t ← loadFile t inner
  return t

def loadPlace (t : FileTree) (p : Path) : IO FileTree := do
  let mut t := t
  for count in [1:p.parts.length + 1] do
    let place := { p with parts := p.parts.take count }
    match ← kindAt place with
    | some .dir => t := withEntry t place .folder
    | some _ => t := withEntry t place (.file [])
    | none => pure ()
  return t

def loadRoot (t : FileTree) (p : Path) : IO FileTree := do
  match ← kindAt p with
  | some .dir => loadFolder t p
  | some .file => loadFile t p
  | _ => return t

def loadCurrent : IO FileTree := do
  let p := Path.ofString (← IO.currentDir).toString
  return (withEntry .empty p .folder).enter p

def outputOf? (request : Option CommandLine.Request) : Option Path :=
  match request with
  | some (.scan request) => request.output.map Path.ofString
  | _ => none

def load (request : Option CommandLine.Request) : IO FileTree := do
  let mut t ← loadCurrent
  if let some output := outputOf? request then t ← loadPlace t output
  if let some (.scan request) := request then t ← loadRoot t (.ofString request.path)
  return t

def environment : IO Environment := do
  return {
    swiftEnabled := ← IO.getEnv Environment.swiftEnabledVariable
    resolvedEnabled := ← IO.getEnv Environment.resolvedEnabledVariable
    maxFileSize := ← IO.getEnv Environment.maxFileSizeVariable }

def timestamp : IO String := do
  let now ← Std.Time.PlainDateTime.now
  return now.format "uuuu-MM-dd" ++ "T" ++ now.format "HH:mm:ss.SSSSSS"

def save (p : Path) (octets : List UInt8) : IO Unit := do
  let here ← IO.currentDir
  IO.FS.createDirAll (here / toString p.parent)
  IO.FS.writeBinFile (here / toString p) ⟨octets.toArray⟩

def display (o : CommandLine.Outcome) : IO Unit := do
  for m in o.log do IO.eprintln m.toString
  for block in o.console do
    for line in block.plainLines do IO.println line
  IO.print o.stdout

def reason : CommandLine.Crash → String
  | .interrupted (.slashesOnly e) => "A package name of slashes only: " ++ e.name
  | .interrupted (.pathTooLong e) => "A path that is too long: " ++ toString e.path
  | .unwritable _ => "The output file cannot be written"
  | .nullCharacter => "A path that holds a null character"

/-- A run that did not end with its answer leaves no file behind. -/
def finish (request : Option CommandLine.Request) (o : CommandLine.Outcome) : IO UInt32 := do
  display o
  match o.crash with
  | some crash => IO.eprintln (reason crash)
  | none =>
    if o.exitCode == CommandLine.usageExitCode then IO.eprintln usage
    if o.exitCode == 0 then
      if let some output := outputOf? request then
        if let .ok (some octets) := o.tree.read? output then save output octets
  if request == some .help then IO.println usage
  return UInt32.ofNat o.exitCode

/-- The time that a scan takes is the time that it takes to get at the files. -/
def run (arguments : List String) : IO UInt32 := do
  let request := CommandLine.request? arguments
  let before ← IO.monoMsNow
  let tree ← load request
  let elapsed := (← IO.monoMsNow) - before
  let outcome := CommandLine.run {
    environment := ← environment
    tree
    timestamp := ← timestamp
    scanTime := .ofDecimal false elapsed (-3) } arguments
  finish request outcome

end SwiftInventory.Program

def main (arguments : List String) : IO UInt32 := SwiftInventory.Program.run arguments
