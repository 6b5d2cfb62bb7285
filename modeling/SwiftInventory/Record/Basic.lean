import SwiftInventory.Checksums
import SwiftInventory.Evidence
import SwiftInventory.Path

namespace SwiftInventory

/-- `isVirtual` marks a record that stands for an entry of a file, not for the file. -/
structure Record where
  filePath : Path
  actualFile : Path
  ecosystem : Option String := some ""
  name : Option String := none
  version : Option String := none
  packagePath : Option String := none
  displayName : Option String := none
  identifiers : List Identifier := []
  evidence : List Evidence := []
  checksums : Option Checksums := none
  isVirtual : Bool := false
deriving DecidableEq

namespace Record

def ofFile (path : Path) (isVirtual : Bool) : Record where
  filePath := path
  actualFile := path
  displayName := some path.name
  isVirtual := isVirtual

instance : Inhabited Record := ⟨ofFile (.ofString "") false⟩

variable (r : Record)

def fileName : String := r.filePath.name

def addEvidence (e : Evidence) : Record := { r with evidence := r.evidence ++ [e] }

def evidenceOf (kind : EvidenceKind) : List Evidence := r.evidence.filter (·.kind == kind)

def addIdentifier (i : Identifier) : Record :=
  if r.identifiers.contains i then r else { r with identifiers := r.identifiers ++ [i] }

end Record

def nonEmpty? (s : Option String) : Option String := s.filter fun s ↦ !s.isEmpty

end SwiftInventory
