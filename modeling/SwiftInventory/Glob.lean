namespace SwiftInventory.Glob

/-- A set holds the characters between the two ends of each range. -/
inductive Token
  | run
  | one
  | exactly (c : Char)
  | among (negated : Bool) (ranges : List (Char × Char))

def Token.accepts : Token → Char → Bool
  | .run, _ => false
  | .one, _ => true
  | .exactly c, d => c == d
  | .among negated ranges, c => negated != ranges.any fun (low, high) ↦ low ≤ c && c ≤ high

/-- What stands between a bracket and its closing one. A closing bracket that comes first, or
right after an exclamation mark, belongs to the set. -/
def setBody? (s : List Char) : Option (List Char) :=
  let opening := match s with
    | '!' :: ']' :: _ => 2
    | '!' :: _ => 1
    | ']' :: _ => 1
    | _ => 0
  let inside := (s.drop opening).takeWhile (· != ']')
  if s.length ≤ opening + inside.length then none else some (s.take opening ++ inside)

/-- Cuts a set at its range hyphens. The next `fixed` characters are cut nowhere, and so are
the two that follow a range hyphen. -/
def chunksFrom (fixed : Nat) (chunk : List Char) : List Char → List (List Char)
  | [] => [chunk.reverse]
  | c :: rest =>
    if fixed == 0 && c == '-' then chunk.reverse :: chunksFrom 2 [] rest
    else chunksFrom (fixed - 1) (c :: chunk) rest

/-- A hyphen with nothing after it is itself in the set. -/
def keepLastHyphen (chunks : List (List Char)) : List (List Char) :=
  match chunks.reverse with
  | [] :: chunk :: before => ((chunk ++ ['-']) :: before).reverse
  | _ => chunks

/-- Joins a chunk to those after it, leaving out a range whose ends are the wrong way round. -/
def joinChunk (chunk : List Char) (chunks : List (List Char)) : List (List Char) :=
  match chunk.getLast?, chunks with
  | some low, (high :: rest) :: after =>
    if high < low then (chunk.dropLast ++ rest) :: after else chunk :: chunks
  | _, _ => chunk :: chunks

def chunks (body : List Char) : List (List Char) :=
  let fixed := if body.head? == some '!' then 2 else 1
  (keepLastHyphen (chunksFrom fixed [] body)).foldr joinChunk []

/-- Neighbouring chunks span a range. A hyphen with nothing before it is itself in the set. -/
def chunkRanges : List (List Char) → List (Char × Char)
  | [] => []
  | [chunk] => chunk.map fun c ↦ (c, c)
  | chunk :: next :: after =>
    let between := match chunk.getLast?, next.head? with
      | some low, some high => (low, high)
      | _, _ => ('-', '-')
    chunk.map (fun c ↦ (c, c)) ++ between :: chunkRanges (next :: after)

/-- Whether the exclamation mark leads is decided once the empty ranges are gone. -/
def Token.ofBody (body : List Char) : Token :=
  match chunks body with
  | ('!' :: chunk) :: after => among true (chunkRanges (chunk :: after))
  | cut => among false (chunkRanges cut)

/-- Skips the characters that the last token has taken already. -/
def tokensFrom : Nat → List Char → List Token
  | _, [] => []
  | taken + 1, _ :: rest => tokensFrom taken rest
  | 0, c :: rest =>
    if c == '*' then .run :: tokensFrom 0 rest
    else if c == '?' then .one :: tokensFrom 0 rest
    else if c == '[' then
      match setBody? rest with
      | some body => .ofBody body :: tokensFrom (body.length + 1) rest
      | none => .exactly c :: tokensFrom 0 rest
    else .exactly c :: tokensFrom 0 rest

def tokens (pattern : List Char) : List Token := tokensFrom 0 pattern

/-- `fits` tells for every end part of the text, longest first, whether the tokens after this
one match it; the result tells the same with this token in front. -/
def Token.extend (s : List Char) (token : Token) (fits : List Bool) : List Bool :=
  match token with
  | .run => fits.foldr (fun here later ↦ (here || later.headD false) :: later) []
  | token => List.zipWith (fun c rest ↦ token.accepts c && rest) s fits.tail ++ [false]

def matchesTokens (ts : List Token) (s : List Char) : Bool :=
  (ts.foldr (Token.extend s) (s.map (fun _ ↦ false) ++ [true])).headD false

end SwiftInventory.Glob

namespace SwiftInventory

/-- A star takes any run of characters, a question mark any single one, a bracket one character of a
set. Slashes and line ends are characters like any other. -/
def globMatches (pattern s : List Char) : Bool := Glob.matchesTokens (Glob.tokens pattern) s

end SwiftInventory
