import SwiftInventory.PackageUrl.Basic

namespace SwiftInventory.PackageUrl

open Text

inductive Unreadable
  | otherScheme
  | noType
  | badType (type : String)
  | noName (text : String)
deriving DecidableEq

def isSchemeChar (c : Char) : Bool := c.isAlphanum || c == '+' || c == '.' || c == '-'

def isTypeChar (c : Char) : Bool := c.isAlphanum || c == '.' || c == '-' || c == '_'

def splitScheme (s : List Char) : Option (List Char) × List Char :=
  match s.span (· != ':') with
  | (c :: scheme, _ :: rest) =>
    if c.isAlpha && scheme.all isSchemeChar then (some (c :: scheme), rest) else (none, s)
  | _ => (none, s)

def splitHost (s : List Char) : List Char × List Char :=
  match s with
  | '/' :: '/' :: rest => rest.span fun c ↦ !"/?#".toList.contains c
  | _ => ([], s)

/-- Scheme, host and path joined by colons. The slashes before a host are lost. -/
def location (s : List Char) : List Char :=
  let (scheme, rest) := splitScheme s
  let (host, path) := splitHost rest
  let path := path.takeWhile fun c ↦ !"?#".toList.contains c
  let path := if host.isEmpty then path else host ++ ':' :: path
  match scheme with
  | some scheme => scheme ++ ':' :: path
  | none => path

/-- What follows the type is first read as the reference of a general URL, so that a scheme before a
colon may be followed by the name of a host. The last segment is the name; those before it, if any,
are the scope. -/
def parse (s : String) : Except Unreadable PackageUrl :=
  match "pkg:".toList.isPrefixOf? s.toList with
  | none => .error .otherScheme
  | some rest =>
    let (type, rest) := ((trim rest).dropWhile (· == '/')).span (· != '/')
    if type.isEmpty || rest.isEmpty then .error .noType
    else if !type.all isTypeChar then .error (.badType (String.ofList type))
    else
      let type := String.ofList (lowercase type)
      let path := (location (rest.drop 1)).dropWhile (· == '/')
      let (path, version) := match splitAtLast? '@' path with
        | some (path, version) => (path, some version)
        | none => (path, none)
      let segments := ((trim path).splitOn '/').filter fun p ↦ !p.isEmpty
      match segments.reverse with
      | [] => .error (.noName s)
      | name :: scope =>
        match normalName type (Percent.decode name) with
        | [] => .error (.noName s)
        | name => .ok {
            type
            scope := if scope.isEmpty then none
              else some ("/".intercalate (scope.reverse.map fun p ↦ String.ofList (Percent.decode p)))
            name := String.ofList name
            version := version.bind fun v ↦ versionOf (normalVersion type (Percent.decode v)) }

end SwiftInventory.PackageUrl
