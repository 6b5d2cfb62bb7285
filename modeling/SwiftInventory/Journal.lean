import SwiftInventory.Message

namespace SwiftInventory

/-- A logger of level zero goes by the level of the one `above`, and at last by that of the root. -/
structure Logger where
  level : Int := 0
  handlers : Nat := 0
  propagate : Bool := true
  above : String := "root"
deriving DecidableEq

namespace Logger

def atLevel (level : Int) (l : Logger) : Logger := { l with level }

/-- A logger of one's own: it has one handler and passes nothing on. -/
def asOwn (level : Int) (l : Logger) : Logger := { l with level, handlers := 1, propagate := false }

end Logger

/-- A name without a logger is there because a longer name is. `wrapped` lists the loggers that
were asked for by name, each once. -/
structure Journal where
  root : Logger := { level := 30 }
  names : List (String × Option Logger) := []
  wrapped : List String := []

namespace Journal

variable (j : Journal)

def programPrefix : String := "spm_shield"

def defaultLevel : Int := 20

def verboseLevel : Int := 10

def isRoot (name : String) : Bool := name.isEmpty || name == "root"

/-- What stands before the last dot. The search starts one place further to the left than the
text ends, and a dot in front of everything does not count. -/
def cutAtDot (s : List Char) : Option (List Char) :=
  match s.reverse.dropWhile (· != '.') with
  | [] => none
  | _ :: before => if before.isEmpty then none else some before.reverse

/-- The names of the ancestors, nearest first. After a cut the character before it is skipped. -/
def ancestorsFrom : Nat → List Char → List String
  | 0, _ => []
  | n + 1, s =>
    match cutAtDot s with
    | none => []
    | some name => String.ofList name :: ancestorsFrom n name.dropLast

def ancestors (name : String) : List String := ancestorsFrom name.length name.toList

def find? (name : String) : Option Logger :=
  if isRoot name then some j.root else (j.names.lookup name).join

def addAncestors (names : List (String × Option Logger)) :
    List String → List (String × Option Logger)
  | [] => names
  | name :: rest =>
    match names.lookup name with
    | some (some _) => names
    | some none => addAncestors names rest
    | none => addAncestors (names ++ [(name, none)]) rest

def setName (names : List (String × Option Logger)) (name : String) (l : Logger) :
    List (String × Option Logger) :=
  if names.any (·.1 == name) then names.map fun e ↦ if e.1 == name then (name, some l) else e
  else names ++ [(name, some l)]

/-- A new logger goes above the loggers further down its branch, except where the name of the one
above them starts with its own name. That one is nearer, or it is the root and the new name a
piece of `root`. -/
def adopt (name : String) (entry : String × Option Logger) : String × Option Logger :=
  match entry with
  | (below, some l) =>
    if !name.toList.isPrefixOf l.above.toList && (ancestors below).contains name then
      (below, some { l with above := name })
    else entry
  | (_, none) => entry

def nearestAbove (name : String) : String :=
  ((ancestors name).find? fun above ↦ (j.names.lookup above).join.isSome).getD "root"

def update (name : String) (f : Logger → Logger) : Journal :=
  if isRoot name then { j with root := f j.root }
  else
    match j.find? name with
    | some l => { j with names := setName j.names name (f l) }
    | none =>
      let names := setName (j.names.map (adopt name)) name (f { above := j.nearestAbove name })
      { j with names := addAncestors names (ancestors name) }

/-- The number bounds the loggers on the way to the root. -/
def levelFrom : Nat → String → Int
  | 0, _ => j.root.level
  | n + 1, name =>
    match j.find? name with
    | none => j.root.level
    | some l => if l.level != 0 || isRoot name then l.level else levelFrom n l.above

/-- The level that a logger goes by. The names above one another get shorter. -/
def effectiveLevel (name : String) : Int := j.levelFrom (name.length + 1) name

def wrap (name : String) (level : Int) : Journal :=
  let j := j.update name (Logger.asOwn level)
  { j with wrapped := if j.wrapped.contains name then j.wrapped else j.wrapped ++ [name] }

/-- How many handlers a message comes to: those of the logger, and those of the loggers above it for
as long as each one passes on what it gets. The number bounds the loggers on the way. -/
def handlersFrom : Nat → String → Nat
  | 0, _ => 0
  | n + 1, name =>
    match j.find? name with
    | none => 0
    | some l => l.handlers + if l.propagate && !isRoot name then handlersFrom n l.above else 0

def handlersReached (name : String) : Nat := j.handlersFrom (name.length + 1) name

/-- Messages that a logger lets through, as they are written: once by each handler. -/
def emit (name : String) (m : Message) : List Message :=
  let shown := if isRoot name then "root" else name
  if j.effectiveLevel name ≤ m.severity.rank then
    List.replicate (j.handlersReached name) ⟨m.severity, shown ++ ": " ++ m.text⟩
  else []

def ownNames : List String :=
  (j.names.map (·.1)).filter fun name ↦ programPrefix.toList.isPrefixOf name.toList

/-- The root is set up once. The program's own loggers pass nothing on, so that each of them
gets the level itself. -/
def setup (level : Int) (verbose withFile : Bool) : Journal :=
  let level := if verbose then verboseLevel else level
  let j :=
    if j.root.handlers == 0 then
      { j with root := { j.root with level := level, handlers := if withFile then 2 else 1 } }
    else j
  j.ownNames.foldl (fun j name ↦ j.update name (Logger.atLevel level)) j

end Journal

end SwiftInventory
