namespace SwiftInventory.Text

def isBlank (c : Char) : Bool :=
  let n := c.toNat
  (0x09 ≤ n && n ≤ 0x0D) || (0x1C ≤ n && n ≤ 0x20) || n == 0x85 || n == 0xA0 || n == 0x1680 ||
    (0x2000 ≤ n && n ≤ 0x200A) || n == 0x2028 || n == 0x2029 || n == 0x202F || n == 0x205F ||
    n == 0x3000

/-- Space and tab: the blanks that indent a line and never leave it. -/
def isIndent (c : Char) : Bool := c == ' ' || c == '\t'

def isBlankOrControl (c : Char) : Bool := isBlank c || c.toNat < 0x20 || c.toNat == 0x7F

def trimStart (s : List Char) : List Char := s.dropWhile isBlank

def trimEnd (s : List Char) : List Char := (s.reverse.dropWhile isBlank).reverse

def trim (s : List Char) : List Char := trimEnd (trimStart s)

/-- `afterReturn` says that a carriage return has just been written as a line feed. -/
def unifyLineEndsFrom (done : List Char) (afterReturn : Bool) : List Char → List Char
  | [] => done.reverse
  | c :: rest =>
    if c == '\r' then unifyLineEndsFrom ('\n' :: done) true rest
    else if c == '\n' && afterReturn then unifyLineEndsFrom done false rest
    else unifyLineEndsFrom (c :: done) false rest

/-- A carriage return, with the line feed after it if there is one, becomes a line feed. -/
def unifyLineEnds (s : List Char) : List Char := unifyLineEndsFrom [] false s

def splitAtLast? (separator : Char) (s : List Char) : Option (List Char × List Char) :=
  match s.reverse.span (· != separator) with
  | (_, []) => none
  | (after, _ :: before) => some (before.reverse, after.reverse)

def stripAll (c : Char) (s : List Char) : List Char :=
  ((s.dropWhile (· == c)).reverse.dropWhile (· == c)).reverse

/-- The table is increasing, so a range that starts above `n` ends the search. -/
def inRanges : List (Nat × Nat) → Nat → Bool
  | [], _ => false
  | (low, high) :: table, n => if n < low then false else n ≤ high || inRanges table n

/-- The zero of every script. The other digits of a script stand right behind it, in order. -/
def digitZeros : List Nat := [
  0x30, 0x660, 0x6F0, 0x7C0, 0x966, 0x9E6, 0xA66, 0xAE6, 0xB66, 0xBE6, 0xC66, 0xCE6, 0xD66,
  0xDE6, 0xE50, 0xED0, 0xF20, 0x1040, 0x1090, 0x17E0, 0x1810, 0x1946, 0x19D0, 0x1A80, 0x1A90,
  0x1B50, 0x1BB0, 0x1C40, 0x1C50, 0xA620, 0xA8D0, 0xA900, 0xA9D0, 0xA9F0, 0xAA50, 0xABF0, 0xFF10,
  0x104A0, 0x10D30, 0x11066, 0x110F0, 0x11136, 0x111D0, 0x112F0, 0x11450, 0x114D0, 0x11650,
  0x116C0, 0x11730, 0x118E0, 0x11950, 0x11C50, 0x11D50, 0x11DA0, 0x16A60, 0x16AC0, 0x16B50,
  0x1D7CE, 0x1D7D8, 0x1D7E2, 0x1D7EC, 0x1D7F6, 0x1E140, 0x1E2F0, 0x1E950, 0x1FBF0]

def digitValue? (c : Char) : Option Nat :=
  let n := c.toNat
  (digitZeros.find? fun base ↦ base ≤ n && n < base + 10).map (n - ·)

namespace Hex

def lower (n : Nat) : Char := "0123456789abcdef".toList.getD n '0'

def upper (n : Nat) : Char := "0123456789ABCDEF".toList.getD n '0'

def value? (c : Char) : Option Nat :=
  let n := c.toNat
  if 0x30 ≤ n && n ≤ 0x39 then some (n - 0x30)
  else if 0x41 ≤ n && n ≤ 0x46 then some (n - 0x41 + 10)
  else if 0x61 ≤ n && n ≤ 0x66 then some (n - 0x61 + 10)
  else none

def padded (digit : Nat → Char) : Nat → Nat → List Char
  | 0, _ => []
  | width + 1, n => padded digit width (n / 16) ++ [digit (n % 16)]

end Hex

end SwiftInventory.Text
