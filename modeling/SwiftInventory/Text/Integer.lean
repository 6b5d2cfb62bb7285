import SwiftInventory.Text.Basic

namespace SwiftInventory.Text.Integer

/-- The separators among the control characters do not surround a number. -/
def isPadding (c : Char) : Bool := isBlank c && !(0x1C ≤ c.toNat && c.toNat ≤ 0x1F)

def strip (s : List Char) : List Char :=
  ((s.dropWhile isPadding).reverse.dropWhile isPadding).reverse

/-- Longer numbers are refused, whatever their value. -/
def maxDigits : Nat := 4300

/-- The values of the digits. A low line stands only between two of them. -/
def digitsFrom (done : List Nat) (afterDigit : Bool) : List Char → Option (List Nat)
  | [] => if afterDigit then some done.reverse else none
  | c :: rest =>
    match digitValue? c with
    | some d => digitsFrom (d :: done) true rest
    | none => if c == '_' && afterDigit then digitsFrom done false rest else none

def magnitude? (s : List Char) : Option Nat :=
  match digitsFrom [] false s with
  | some digits =>
    if digits.length ≤ maxDigits then some (digits.foldl (fun n d ↦ 10 * n + d) 0) else none
  | none => none

def read? (s : List Char) : Option Int :=
  match strip s with
  | '-' :: rest => (magnitude? rest).map fun (n : Nat) ↦ -(n : Int)
  | '+' :: rest => (magnitude? rest).map Int.ofNat
  | rest => (magnitude? rest).map Int.ofNat

end SwiftInventory.Text.Integer
