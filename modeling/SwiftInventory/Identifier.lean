import SwiftInventory.PackageUrl.Checked

namespace SwiftInventory

inductive Confidence
  | low
  | medium
  | high
  | highest
deriving DecidableEq

def Confidence.label : Confidence → String
  | low => "LOW"
  | medium => "MEDIUM"
  | high => "HIGH"
  | highest => "HIGHEST"

/-- Two identifiers are equal when their parts are, whatever they are written as. -/
inductive Identifier
  | packageUrl (url : PackageUrl) (confidence : Confidence)
  | generic (value : String) (confidence : Confidence)
deriving DecidableEq

/-- A name of slashes only passes every check and then leaves a package URL without a name. -/
structure SlashesOnly where
  name : String
deriving DecidableEq

namespace Identifier

def value : Identifier → String
  | packageUrl url _ => url.text
  | generic value _ => value

def confidence : Identifier → Confidence
  | packageUrl _ c => c
  | generic _ c => c

def isFallback : Identifier → Bool
  | packageUrl .. => false
  | generic .. => true

def orNone (s : Option String) : String := s.getD "None"

def fallbackText (ecosystem name version : Option String) : String :=
  let coordinates := orNone ecosystem ++ ":" ++ orNone name
  match version with
  | some v => coordinates ++ "@" ++ v
  | none => coordinates

/-- Every fault of a package URL but one leads to the plain text. -/
def ofCoordinates (ecosystem name version : Option String) (confidence : Confidence) :
    Except SlashesOnly Identifier :=
  match PackageUrl.checked ecosystem name version with
  | .ok url => .ok (packageUrl url confidence)
  | .error .slashesOnly => .error ⟨orNone name⟩
  | .error _ => .ok (generic (fallbackText ecosystem name version) confidence)

end Identifier

end SwiftInventory
