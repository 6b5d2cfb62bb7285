import SwiftInventory.Path

namespace SwiftInventory.CommandLine

structure ScanRequest where
  path : String := "."
  output : Option String := none
  format : String := "console"
  verbose : Bool := false
  ignore : List String := []
deriving DecidableEq

/-- A null character in a path is found out before anything is looked up. -/
inductive Request
  | help
  | info
  | scan (request : ScanRequest)
  | nullCharacter
deriving DecidableEq

/-- Which value an option sets; `verbose` and `help` take none. -/
inductive Flag
  | output
  | format
  | verbose
  | ignore
  | help
deriving DecidableEq

def Flag.takesValue : Flag → Bool
  | verbose | help => false
  | output | format | ignore => true

structure Parsed where
  request : ScanRequest := {}
  helpAsked : Bool := false
  arguments : List String := []
deriving DecidableEq

/-- The last value of an option counts; patterns add up. -/
def Parsed.set (p : Parsed) (flag : Flag) (value : String) : Parsed :=
  match flag with
  | .output => { p with request := { p.request with output := some value } }
  | .format => { p with request := { p.request with format := value } }
  | .verbose => { p with request := { p.request with verbose := true } }
  | .ignore => { p with request := { p.request with ignore := p.request.ignore ++ [value] } }
  | .help => { p with helpAsked := true }

/-- The names that a command knows. With `leading`, options stand only in front of the first
argument that is none. -/
structure Options where
  long : List (String × Flag)
  short : List (Char × Flag) := []
  leading : Bool := false

def Options.scan : Options where
  long := [("--output", .output), ("--format", .format), ("--verbose", .verbose),
    ("--ignore", .ignore), ("--help", .help)]
  short := [('o', .output), ('f', .format), ('v', .verbose)]

def Options.info : Options where
  long := [("--help", .help)]

def Options.program : Options where
  long := [("--help", .help)]
  leading := true

def splitEquals (s : List Char) : String × Option String :=
  match s.span (· != '=') with
  | (name, _ :: value) => (String.ofList name, some (String.ofList value))
  | (name, []) => (String.ofList name, none)

/-- A cluster of short options. The first one that takes a value takes the rest of the argument;
`some` names it where nothing is left. -/
def cluster? (options : Options) (p : Parsed) : List Char → Option (Parsed × Option Flag)
  | [] => some (p, none)
  | c :: rest =>
    match options.short.lookup c with
    | none => none
    | some flag =>
      if !flag.takesValue then cluster? options (p.set flag "") rest
      else if rest.isEmpty then some (p, some flag)
      else some (p.set flag (String.ofList rest), none)

/-- One argument that starts with a dash; `some` names an option whose value is still to come. -/
def option? (options : Options) (p : Parsed) (argument : String) : Option (Parsed × Option Flag) :=
  let (name, value?) := splitEquals argument.toList
  match options.long.lookup name with
  | some flag =>
    match flag.takesValue, value? with
    | true, some value => some (p.set flag value, none)
    | true, none => some (p, some flag)
    | false, some _ => none
    | false, none => some (p.set flag "", none)
  | none =>
    if "--".toList.isPrefixOf argument.toList then none
    else cluster? options p (argument.toList.drop 1)

def isOption (argument : String) : Bool := argument.toList.head? == some '-' && argument != "-"

/-- Reads the arguments of a command from left to right. `awaited` is an option whose value comes
next, whatever it looks like; a double dash ends the options. -/
def parseFrom (options : Options) (p : Parsed) : Option Flag → List String → Option Parsed
  | some _, [] => none
  | some flag, value :: rest => parseFrom options (p.set flag value) none rest
  | none, [] => some p
  | none, argument :: rest =>
    if argument == "--" then some { p with arguments := p.arguments ++ rest }
    else if isOption argument then
      match option? options p argument with
      | some (p, awaited) => parseFrom options p awaited rest
      | none => none
    else if options.leading then some { p with arguments := argument :: rest }
    else parseFrom options { p with arguments := p.arguments ++ [argument] } none rest

def Parsed.holdsNull (p : Parsed) : Bool :=
  (p.arguments.take 1 ++ p.request.output.toList).any fun path ↦ (Path.ofString path).holdsNull

def scanRequest? (arguments : List String) : Option Request :=
  match parseFrom .scan {} none arguments with
  | none => none
  | some p =>
    if p.helpAsked then some .help
    else if p.holdsNull then some .nullCharacter
    else
      match p.arguments with
      | [] => some (.scan p.request)
      | [path] => some (.scan { p.request with path })
      | _ => none

def infoRequest? (arguments : List String) : Option Request :=
  match parseFrom .info {} none arguments with
  | none => none
  | some p => if p.helpAsked then some .help else if p.arguments.isEmpty then some .info else none

def command? (name : String) (arguments : List String) : Option Request :=
  if name == "scan" then scanRequest? arguments
  else if name == "info" then infoRequest? arguments
  else none

def request? (arguments : List String) : Option Request :=
  match parseFrom .program {} none arguments with
  | none => none
  | some p =>
    if p.helpAsked then some .help
    else
      match p.arguments with
      | [] => none
      | name :: rest => command? name rest

end SwiftInventory.CommandLine
