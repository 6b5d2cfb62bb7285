namespace SwiftInventory.Markup

def isTagStart (c : Char) : Bool := ('a' ≤ c && c ≤ 'z') || c == '#' || c == '/' || c == '@'

/-- How many characters of a tag follow its opening bracket. Another opening bracket before the
closing one means that there is no tag. -/
def tagLength? (s : List Char) : Option Nat :=
  match s with
  | c :: rest =>
    if isTagStart c then
      let inside := rest.takeWhile fun d ↦ d != '[' && d != ']'
      if (rest.drop inside.length).head? == some ']' then some (inside.length + 2) else none
    else none
  | [] => none

/-- `slashes` backslashes have been read and not written, `taken` characters belong to the tag
at hand, and `done` is the text so far in reverse. -/
def escapeFrom (done : List Char) (slashes taken : Nat) : List Char → List Char
  | [] => (List.replicate slashes '\\' ++ done).reverse
  | c :: rest =>
    match taken with
    | taken + 1 => escapeFrom (c :: done) slashes taken rest
    | 0 =>
      if c == '\\' then escapeFrom done (slashes + 1) 0 rest
      else
        match if c == '[' then tagLength? rest else none with
        | some length =>
          escapeFrom (c :: List.replicate (2 * slashes + 1) '\\' ++ done) 0 length rest
        | none => escapeFrom (c :: List.replicate slashes '\\' ++ done) 0 0 rest

/-- A single backslash at the end would join what is written after the text. -/
def guardEnd (s : List Char) : List Char :=
  match s.reverse with
  | '\\' :: '\\' :: _ => s
  | '\\' :: _ => s ++ ['\\']
  | _ => s

/-- Each tag gets one backslash, and those before it are doubled. -/
def escape (s : String) : String := String.ofList (guardEnd (escapeFrom [] 0 0 s.toList))

end SwiftInventory.Markup
