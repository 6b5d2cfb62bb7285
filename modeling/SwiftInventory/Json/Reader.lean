import SwiftInventory.Json.Basic

namespace SwiftInventory.Json

def skipBlanks (s : List Char) : List Char := s.dropWhile fun c ↦ " \t\n\r".toList.contains c

def escaped? (c : Char) : Option Char :=
  match c with
  | '"' => some '"'
  | '\\' => some '\\'
  | '/' => some '/'
  | 'n' => some '\n'
  | 'r' => some '\r'
  | 't' => some '\t'
  | 'b' => some '\x08'
  | 'f' => some '\x0c'
  | _ => none

def hexNumber? (figures : List Char) : Option Nat :=
  figures.foldl (fun n? c ↦ do some ((← n?) * 16 + (← Text.Hex.value? c))) (some 0)

/-- A unit of UTF-16 after another that may still wait for its second half: what waits now, and
the character that is complete. -/
def joinUnit? (pending : Option Nat) (unit : Nat) : Option (Option Nat × Option Char) :=
  match pending with
  | none =>
    if 0xD800 ≤ unit && unit < 0xDC00 then some (some unit, none)
    else if 0xDC00 ≤ unit && unit < 0xE000 then none
    else some (none, some (Char.ofNat unit))
  | some high =>
    if 0xDC00 ≤ unit && unit < 0xE000 then
      some (none, some (Char.ofNat (0x10000 + (high - 0xD800) * 0x400 + (unit - 0xDC00))))
    else none

/-- The rest of a string, after the characters in `done`, which are in reverse. -/
def stringFrom (pending : Option Nat) (done : List Char) : List Char → Option (String × List Char)
  | '\\' :: 'u' :: a :: b :: c :: d :: rest =>
    match (hexNumber? [a, b, c, d]).bind (joinUnit? pending) with
    | some (pending, some char) => stringFrom pending (char :: done) rest
    | some (pending, none) => stringFrom pending done rest
    | none => none
  | '\\' :: c :: rest =>
    match pending, escaped? c with
    | none, some char => stringFrom none (char :: done) rest
    | _, _ => none
  | c :: rest =>
    if pending.isSome || c.toNat < 0x20 then none
    else if c == '"' then some (String.ofList done.reverse, rest)
    else stringFrom none (c :: done) rest
  | [] => none

def isNumberChar (c : Char) : Bool := c.isDigit || "+-.eE".toList.contains c

def figures? (s : List Char) : Option (List Char × List Char) :=
  match s.span Char.isDigit with
  | ([], _) => none
  | found => some found

/-- A whole part does not start with a needless zero. -/
def wholePart? (s : List Char) : Option (List Char × List Char) :=
  (figures? s).filter fun (figures, _) ↦ figures.length == 1 || figures.head? != some '0'

def exponentPart? (s : List Char) : Option Int :=
  let (negative, s) := match s with
    | '+' :: rest => (false, rest)
    | '-' :: rest => (true, rest)
    | rest => (false, rest)
  match figures? s with
  | some (figures, []) =>
    let n : Int := Nat.ofDigitChars 10 figures 0
    some (if negative then -n else n)
  | _ => none

def isExponentMark (c : Char) : Bool := c == 'e' || c == 'E'

/-- A number with a fraction or an exponent is a double. -/
def unsigned? (negative : Bool) (s : List Char) : Option Number := do
  let (figures, rest) ← wholePart? s
  let (fraction, rest') ← match rest with
    | '.' :: rest => figures? rest
    | rest => some ([], rest)
  let digits := Nat.ofDigitChars 10 (figures ++ fraction) 0
  match rest' with
  | [] =>
    if rest.isEmpty then some (.whole (if negative then -digits else digits))
    else some (.double (.ofDecimal negative digits (-fraction.length)))
  | c :: power =>
    if isExponentMark c then
      let power ← exponentPart? power
      some (.double (.ofDecimal negative digits (power - fraction.length)))
    else none

def number? (s : List Char) : Option Number :=
  match s with
  | '-' :: rest => unsigned? true rest
  | rest => unsigned? false rest

/-- The values that are words. Those for numbers past the grammar are read like the others. -/
def keywords : List (String × Json) := [
  ("null", null), ("true", bool true), ("false", bool false),
  ("NaN", number (.double .notANumber)), ("Infinity", number (.double (.infinite false))),
  ("-Infinity", number (.double (.infinite true)))]

def keyword? (s : List Char) : Option (Json × List Char) :=
  keywords.findSome? fun (word, j) ↦ (word.toList.isPrefixOf? s).map (j, ·)

def numberOrKeyword? (s : List Char) : Option (Json × List Char) :=
  match keyword? s with
  | some found => some found
  | none =>
    let (lexeme, rest) := s.span isNumberChar
    (number? lexeme).map fun n ↦ (number n, rest)

mutual

/-- A value and what follows it. The number bounds the steps that are left. -/
def valueFrom : Nat → List Char → Option (Json × List Char)
  | 0, _ => none
  | n + 1, s =>
    match skipBlanks s with
    | [] => none
    | c :: rest =>
      if c == '"' then (stringFrom none [] rest).map fun (s, rest) ↦ (string s, rest)
      else if c == '[' then
        match skipBlanks rest with
        | ']' :: rest => some (array [], rest)
        | rest => elementsFrom n [] rest
      else if c == '\x7b' then
        match skipBlanks rest with
        | '\x7d' :: rest => some (object [], rest)
        | rest => membersFrom n [] rest
      else numberOrKeyword? (c :: rest)

def elementsFrom : Nat → List Json → List Char → Option (Json × List Char)
  | 0, _, _ => none
  | n + 1, done, s =>
    match valueFrom n s with
    | none => none
    | some (j, rest) =>
      match skipBlanks rest with
      | ',' :: rest => elementsFrom n (j :: done) rest
      | ']' :: rest => some (array (j :: done).reverse, rest)
      | _ => none

def membersFrom : Nat → List (String × Json) → List Char → Option (Json × List Char)
  | 0, _, _ => none
  | n + 1, done, s =>
    match skipBlanks s with
    | '"' :: rest =>
      match stringFrom none [] rest with
      | none => none
      | some (key, rest) =>
        match skipBlanks rest with
        | ':' :: rest =>
          match valueFrom n rest with
          | none => none
          | some (j, rest) =>
            match skipBlanks rest with
            | ',' :: rest => membersFrom n ((key, j) :: done) rest
            | '\x7d' :: rest => some (object ((key, j) :: done).reverse, rest)
            | _ => none
        | _ => none
    | _ => none

end

def parse? (s : String) : Option Json :=
  match valueFrom (2 * s.length + 2) s.toList with
  | some (j, rest) => if (skipBlanks rest).isEmpty then some j else none
  | none => none

end SwiftInventory.Json
