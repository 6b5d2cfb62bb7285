import SwiftInventory.Manifest.Declaration
import SwiftInventory.Record.Field

namespace SwiftInventory.Manifest

def fileName : String := "Package.swift"

def ecosystem : String := "swift"

/-- `listed` tells whether the record describes a package. -/
structure Findings where
  declared : Bool
  listed : Bool
  namedAfterFolder : Bool
  genericIdentifier : Bool
deriving DecidableEq

def namePlace : Field.Note := ⟨.product, some fileName, some "name", .highest⟩

def nameRecord (current : Location) (r : Record) (arguments : String) : Bool × Record :=
  let (name, r) := r.readField "name" arguments (some namePlace)
  if name.isEmpty then (true, { r with name := some (r.actualFile.folderName current) })
  else
    let r := r.addEvidence ⟨.vendor, fileName, "name_project", name, .highest⟩
    (false, { r with name := some name })

def displayName (name : String) (version : Option String) : String :=
  match nonEmpty? version with
  | some v => name ++ ":" ++ v
  | none => name

/-- What was changed before a fault stays changed. -/
def extract (current : Location) (r : Record) (contents : String) :
    Record × Except SlashesOnly Findings :=
  let r := { r with ecosystem := some ecosystem }
  match description? contents.toList with
  | none => (r, .ok ⟨false, false, false, false⟩)
  | some [] => (r, .ok ⟨true, false, false, false⟩)
  | some arguments =>
    let (namedAfterFolder, r) := nameRecord current r (String.ofList arguments)
    let r := { r with displayName := some (displayName (r.name.getD "") r.version) }
    match Identifier.ofCoordinates (some ecosystem) r.name (nonEmpty? r.version) .highest with
    | .error fault => (r, .error fault)
    | .ok i =>
      let r := r.addIdentifier i
      let r := match r.filePath.parentText? with
        | some parent => { r with packagePath := some parent }
        | none => r
      (r, .ok ⟨true, true, namedAfterFolder, i.isFallback⟩)

end SwiftInventory.Manifest
