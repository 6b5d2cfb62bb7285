import SwiftInventory.Percent
import SwiftInventory.Text.Basic
import SwiftInventory.Text.Lowercase

namespace SwiftInventory

open Text

/-- `scope` is what a slash separates from the name. -/
structure PackageUrl where
  type : String
  scope : Option String
  name : String
  version : Option String
deriving DecidableEq

namespace PackageUrl

def lowercaseNameTypes : List String :=
  ["bitbucket", "github", "pypi", "gitlab", "composer", "luarocks", "oci", "npm", "alpm", "apk",
    "bitnami", "hex", "pub"]

def lowercaseVersionTypes : List String := ["huggingface", "oci"]

def dashed (s : List Char) : List Char := s.map fun c ↦ if c == '_' then '-' else c

def isLowerAlphanumeric (c : Char) : Bool := c.isLower || c.isDigit

def normalType (s : List Char) : List Char := lowercase (trim s)

/-- Spaces around a name and slashes at its ends are no part of it. -/
def normalName (type : String) (s : List Char) : List Char :=
  let name := stripAll '/' (trim s)
  let name := if lowercaseNameTypes.contains type then lowercase name else name
  if type == "pypi" || type == "hackage" then dashed name
  else if type == "pub" then name.map fun c ↦ if isLowerAlphanumeric c then c else '_'
  else name

def lowercaseVersion (type : String) (s : List Char) : List Char :=
  if lowercaseVersionTypes.contains type then lowercase s else s

def normalVersion (type : String) (s : List Char) : List Char := lowercaseVersion type (trim s)

def versionOf (s : List Char) : Option String := if s.isEmpty then none else some (String.ofList s)

/-- The rules for versions go by the type as it is given, those for names by its normal form.
Nothing is left of a name made of slashes only. -/
def ofParts? (type name : String) (version : Option String) : Option PackageUrl :=
  let normal := String.ofList (normalType type.toList)
  match normalName normal name.toList with
  | [] => none
  | name => some {
      type := normal
      scope := none
      name := String.ofList name
      version := version.bind fun v ↦ versionOf (normalVersion type v.toList) }

/-- The rules for names and versions are applied once more, to the encoded forms. -/
def text (u : PackageUrl) : String :=
  let type := String.ofList (normalType (Percent.encode u.type.toList))
  let name := normalName type (Percent.encode u.name.toList)
  let scope := match u.scope with
    | some s => Percent.encode s.toList ++ ['/']
    | none => []
  let version := match u.version with
    | some v => '@' :: lowercaseVersion u.type (Percent.encode (trim v.toList))
    | none => []
  "pkg:" ++ type ++ "/" ++ String.ofList (scope ++ name ++ version)

end PackageUrl

end SwiftInventory
