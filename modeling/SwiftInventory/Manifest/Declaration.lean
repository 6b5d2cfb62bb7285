import SwiftInventory.Text.Basic
import SwiftInventory.Text.Word

namespace SwiftInventory.Manifest

open Text

def afterRun? (p : Char → Bool) (s : List Char) : Option (List Char) :=
  match s with
  | c :: rest => if p c then some (rest.dropWhile p) else none
  | [] => none

def isTypeNameChar (c : Char) : Bool := isWord c || c == '.'

def afterTypeName? (s : List Char) : Option (List Char) :=
  match s with
  | ':' :: rest => (afterRun? isTypeNameChar (trimStart rest)).map trimStart
  | _ => some s

/-- What follows the opening parenthesis. No token can be read in two ways, so nothing is gained by
going back. -/
def declarationAt? (s : List Char) : Option (List Char) := do
  let s ← "let".toList.isPrefixOf? s
  let s ← afterRun? isBlank s
  let s ← afterRun? isWord s
  let s ← afterTypeName? (trimStart s)
  let s ← ['='].isPrefixOf? s
  let s ← "Package".toList.isPrefixOf? (trimStart s)
  ['('].isPrefixOf? (trimStart s)

def findDeclaration? (before : Option Char) : List Char → Option (List Char)
  | [] => none
  | c :: rest =>
    match declarationAt? (c :: rest) with
    | some inside => if before.any isWord then findDeclaration? (some c) rest else some inside
    | none => findDeclaration? (some c) rest

/-- The arguments of the first declaration, up to the first closing parenthesis. A declaration
that is never closed hides no closed one: nothing after it is closed either. -/
def description? (s : List Char) : Option (List Char) :=
  match findDeclaration? none s with
  | none => none
  | some rest =>
    match rest.span (· != ')') with
    | (_, []) => none
    | (inside, _ :: _) => some (trimStart inside)

end SwiftInventory.Manifest
