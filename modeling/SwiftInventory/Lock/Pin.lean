import SwiftInventory.Text.Basic

namespace SwiftInventory.Lock

open Text

abbrev Line := List Char

structure Pin where
  name : String
  version : String
deriving DecidableEq

/-- One double quote at the start and one at the end, where a final line end may follow. -/
def unquote (s : List Char) : List Char :=
  let s := if s.head? == some '"' then s.drop 1 else s
  match s.reverse with
  | '"' :: before => before.reverse
  | '\n' :: '"' :: before => ('\n' :: before).reverse
  | _ => s

def dropComma (s : List Char) : List Char := if s.getLast? == some ',' then s.dropLast else s

def trimVersion (s : List Char) : List Char := dropComma (s.reverse.dropWhile isIndent).reverse

/-- What follows the key and its colon on a line that starts with them. -/
def fieldAt? (key : String) (line : Line) : Option Line :=
  (("\"" ++ key ++ "\":").toList.isPrefixOf? line).map (·.dropWhile isIndent)

/-- The next line that is not blank, if it has the key, and the lines after it. -/
def nextField? (key : String) (lines : List Line) : Option (Line × List Line) :=
  match lines.dropWhile (·.all isBlank) with
  | [] => none
  | line :: rest => (fieldAt? key (trimStart line)).map (·, rest)

def endsWithComma (line : Line) : Bool := line.getLast? == some ','

def nextInnerField? (key : String) (lines : List Line) : Option (Line × List Line) :=
  (nextField? key lines).filter fun (value, rest) ↦ endsWithComma value && !rest.isEmpty

def stateFields? (lines : List Line) : Option (Line × List Line) := do
  let (_, lines) ← nextInnerField? "branch" lines
  let (_, lines) ← nextInnerField? "revision" lines
  nextField? "version" lines

/-- A block whose first line is the given one: its values and the lines after it. Only spaces and
tabs indent the first line. Between the other fields blank lines may stand, and after the repository
one line of any kind. -/
def block? (line : Line) (lines : List Line) : Option (Line × Line × List Line) := do
  let name ← fieldAt? "package" (line.dropWhile isIndent)
  if !endsWithComma name || lines.isEmpty then none
  else
    let (_, lines) ← nextInnerField? "repositoryURL" lines
    let (version, lines) ← stateFields? (lines.drop 1) <|> stateFields? lines
    some (name.dropLast, version, lines)

def Pin.ofValues (name version : Line) : Pin :=
  ⟨String.ofList (unquote name), String.ofList (unquote (trimVersion version))⟩

/-- The search goes on after the end of a block. The number bounds the lines left. -/
def pinsFrom : Nat → List Pin → List Line → List Pin
  | 0, done, _ => done.reverse
  | _ + 1, done, [] => done.reverse
  | n + 1, done, line :: lines =>
    match block? line lines with
    | some (name, version, rest) => pinsFrom n (.ofValues name version :: done) rest
    | none => pinsFrom n done lines

def pins (s : List Char) : List Pin :=
  let lines := s.splitOn '\n'
  pinsFrom lines.length [] lines

end SwiftInventory.Lock
