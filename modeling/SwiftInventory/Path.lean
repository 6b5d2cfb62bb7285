namespace SwiftInventory

/-- Exactly two leading slashes are kept apart from one; more than two count as one. -/
inductive Path.Root
  | relative
  | absolute
  | doubled
deriving DecidableEq

structure Path.Part where
  text : String
  text_plain : text ≠ "" ∧ text ≠ "." ∧ '/' ∉ text.toList
deriving DecidableEq

/-- Empty and single-dot parts carry no meaning and are dropped. A double dot stays, because what it
stands for depends on the file tree. -/
structure Path where
  root : Path.Root
  parts : List Path.Part
deriving DecidableEq

/-- The parts that lead from the root folder of a file tree to an entry. -/
abbrev Location := List Path.Part

namespace Path

def Root.ofSlashes : Nat → Root
  | 0 => relative
  | 2 => doubled
  | _ => absolute

def Root.text : Root → String
  | relative => ""
  | absolute => "/"
  | doubled => "//"

def Part.ofText? (s : String) : Option Part :=
  if h : s ≠ "" ∧ s ≠ "." ∧ '/' ∉ s.toList then some ⟨s, h⟩ else none

def Part.isBack (part : Part) : Bool := part.text == ".."

/-- No entry of a folder has a name of more than 255 octets. -/
def Part.isTooLong (part : Part) : Bool := 255 < part.text.utf8ByteSize

def ofString (s : String) : Path where
  root := .ofSlashes (s.toList.takeWhile (· == '/')).length
  parts := (s.toList.splitOn '/').filterMap fun p ↦ Part.ofText? (String.ofList p)

def partsText (parts : List Part) : String := "/".intercalate (parts.map (·.text))

protected def toString (p : Path) : String :=
  if p.root = .relative ∧ p.parts = [] then "." else p.root.text ++ partsText p.parts

instance : ToString Path := ⟨Path.toString⟩

def isAbsolute (p : Path) : Bool := p.root != .relative

/-- No path of more than 4095 octets is looked up. -/
def isTooLong (p : Path) : Bool := 4095 < p.toString.utf8ByteSize

/-- A null character ends a path for the file system, so that none can stand in it. -/
def holdsNull (p : Path) : Bool := p.toString.toList.contains '\x00'

def name (p : Path) : String :=
  match p.parts.getLast? with
  | some part => part.text
  | none => ""

def parent (p : Path) : Path := { p with parts := p.parts.dropLast }

def append (p : Path) (parts : List Part) : Path := { p with parts := p.parts ++ parts }

def parentText? (p : Path) : Option String :=
  if p.parent.toString = "." ∧ ¬ p.isAbsolute then none else some p.parent.toString

/-- The path with the working folder in front; a double dot is not resolved. -/
def absoluteFrom (current : Location) (p : Path) : Path :=
  if p.isAbsolute then p else ⟨.absolute, current ++ p.parts⟩

def folderName (current : Location) (p : Path) : String := (p.absoluteFrom current).parent.name

end Path

end SwiftInventory
