import SwiftInventory.PackageUrl.Reader
import SwiftInventory.Text.Quoted

namespace SwiftInventory.PackageUrl

open Text

inductive Fault
  | badEcosystem (ecosystem : Option String)
  | badName (name : Option String)
  | badVersion (version : String)
  | slashesOnly
  | unreadable (cause : Unreadable)
  | altered (text : String) (ecosystem name : String)
deriving DecidableEq

def isTypeStart (c : Char) : Bool := c.isAlpha || c == '.' || c == '+' || c == '-'

/-- One line end may follow the type. -/
def isEcosystem (s : List Char) : Bool :=
  let type := if s.getLast? == some '\n' then s.dropLast else s
  match type with
  | [] => false
  | c :: rest => isTypeStart c && rest.all isSchemeChar

def isCoordinate (s : List Char) : Bool := !s.isEmpty && !s.any isBlankOrControl

/-- The first coordinate at fault decides: ecosystem, name, version. -/
def checked (ecosystem name : Option String) (version : Option String) : Except Fault PackageUrl :=
  match ecosystem, name with
  | none, _ => .error (.badEcosystem none)
  | some e, name =>
    if !isEcosystem e.toList then .error (.badEcosystem (some e))
    else match name with
      | none => .error (.badName none)
      | some n =>
        if !isCoordinate n.toList then .error (.badName (some n))
        else match version.filter fun v ↦ !isCoordinate v.toList with
          | some v => .error (.badVersion v)
          | none =>
            match ofParts? e n version with
            | none => .error .slashesOnly
            | some u =>
              match parse u.text with
              | .error cause => .error (.unreadable cause)
              | .ok u' => if u' = u then .ok u else .error (.altered u.text e n)

def Unreadable.message : Unreadable → String
  | otherScheme => "purl is missing the required \"pkg\" scheme component."
  | noType => "purl is missing the required type component."
  | badType type =>
    "purl type must be composed only of ASCII letters and numbers, period, dash and underscore: "
      ++ quoted type ++ "."
  | noName text => "purl is missing the required name component: " ++ quoted text

def quotedOr (s : Option String) : String :=
  match s with
  | some s => quoted s
  | none => "None"

def Fault.message : Fault → String
  | badEcosystem e => "Invalid package URL type: " ++ quotedOr e
  | badName n => "Invalid package URL name: " ++ quotedOr n
  | badVersion v => "Invalid package URL version: " ++ quoted v
  | slashesOnly => "package URL without a name"
  | unreadable cause => cause.message
  | altered text ecosystem name =>
    "Package URL " ++ text ++ " does not round-trip to " ++ ecosystem ++ "/" ++ name

end SwiftInventory.PackageUrl
