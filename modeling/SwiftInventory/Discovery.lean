import SwiftInventory.FileTree
import SwiftInventory.Glob

namespace SwiftInventory

def defaultIgnorePatterns : List String :=
  ["*/.build/*", "*/.git/*", "*/.swiftpm/*", "*/Pods/*", "*/Carthage/Checkouts/*",
    "*/DerivedData/*", "*/node_modules/*"]

/-- A pattern is held against the whole path with a slash in front, so that a folder at the top
is found between slashes too, and against the name alone. -/
def Path.isIgnored (p : Path) (extra : List String) : Bool :=
  (defaultIgnorePatterns ++ extra).any fun pattern ↦
    globMatches pattern.toList ('/' :: p.toString.toList) ||
      globMatches pattern.toList p.name.toList

structure DependencyFile where
  path : Path
  ecosystem : String
  parserType : String
deriving DecidableEq

namespace DependencyFile

/-- Ecosystem and parser type of each file name that counts. -/
def ofPath? (p : Path) : Option DependencyFile :=
  if p.name == "Package.swift" then some ⟨p, "swift", "manifest"⟩
  else if p.name == "Package.resolved" then some ⟨p, "swift", "resolved"⟩
  else none

end DependencyFile

inductive SearchFault
  | missing (path : Path)
  | tooLong (e : PathTooLong)
deriving DecidableEq

namespace FileTree

variable (t : FileTree)

def require (p : Path) : Except SearchFault Unit :=
  match t.exists? p with
  | .ok true => .ok ()
  | .ok false => .error (.missing p)
  | .error e => .error (.tooLong e)

/-- The paths of all files below a folder that are not ignored. The search ends where it comes to
a path that is too long. -/
def filesBelow (root : Path) (extra : List String) : Except PathTooLong (List Path) :=
  match t.locate root with
  | .error _ => .ok []
  | .ok l =>
    let found := (t.below l).map fun (parts, e) ↦ (root.append parts, e)
    match found.find? (·.1.isTooLong) with
    | some (p, _) => .error ⟨p⟩
    | none => .ok ((found.filter fun (p, e) ↦ e != .folder && !p.isIgnored extra).map (·.1))

/-- The dependency files below a folder in the order of their paths. A root that is no folder
stands for itself and is never ignored. -/
def listing (root : Path) (extra : List String) : Except PathTooLong (List DependencyFile) := do
  let paths ← if t.isFolder root then t.filesBelow root extra else .ok [root]
  return (paths.filterMap DependencyFile.ofPath?).mergeSort fun a b ↦
    !(b.path.toString < a.path.toString)

def dependencyFiles (root : Path) (extra : List String) :
    Except SearchFault (List DependencyFile) := do
  t.require root
  (t.listing root extra).mapError .tooLong

def missingRootMessage (root : Path) : String := "Root path does not exist: " ++ toString root

end FileTree

namespace DependencyFile

def make (t : FileTree) (p : Path) (ecosystem parserType : String) :
    Except SearchFault DependencyFile :=
  (t.require p).map fun _ ↦ ⟨p, ecosystem, parserType⟩

def missingMessage (p : Path) : String := "Dependency file does not exist: " ++ toString p

end DependencyFile

end SwiftInventory
