import SwiftInventory.Text.Basic

namespace SwiftInventory.Digest

inductive Order
  | bigEndian
  | littleEndian

def Order.arrange (order : Order) (octets : List UInt8) : List UInt8 :=
  match order with
  | .bigEndian => octets
  | .littleEndian => octets.reverse

/-- `left` elements are missing from the group at hand, which is kept in reverse. -/
def groupsFrom {α : Type} (size left : Nat) (group : List α) (done : List (List α)) :
    List α → List (List α)
  | [] => done.reverse
  | a :: rest =>
    if left ≤ 1 then groupsFrom size size [] ((a :: group).reverse :: done) rest
    else groupsFrom size (left - 1) (a :: group) done rest

/-- Consecutive groups of `size` elements; what does not fill a group is left out. -/
def groups {α : Type} (size : Nat) (s : List α) : List (List α) := groupsFrom size size [] [] s

def octetsOf : Nat → Nat → List UInt8
  | 0, _ => []
  | count + 1, n => octetsOf count (n / 256) ++ [UInt8.ofNat n]

/-- A one bit, zero bits, and the length in bits, up to a multiple of 64 octets. -/
def pad (order : Order) (message : List UInt8) : List UInt8 :=
  let zeros := (119 - message.length % 64) % 64
  message ++ 0x80 :: List.replicate zeros 0 ++ order.arrange (octetsOf 8 (8 * message.length))

def word (order : Order) (octets : List UInt8) : UInt32 :=
  (order.arrange octets).foldl (fun w octet ↦ (w <<< 8) ||| octet.toUInt32) 0

def blocks (order : Order) (message : List UInt8) : List (List UInt32) :=
  groups 16 ((groups 4 (pad order message)).map (word order))

def rotateLeft (w : UInt32) (n : UInt32) : UInt32 := (w <<< n) ||| (w >>> (32 - n))

def rotateRight (w : UInt32) (n : UInt32) : UInt32 := (w >>> n) ||| (w <<< (32 - n))

def hex (order : Order) (words : List UInt32) : String :=
  String.ofList (words.flatMap fun w ↦
    (order.arrange (octetsOf 4 w.toNat)).flatMap fun octet ↦
      Text.Hex.padded Text.Hex.lower 2 octet.toNat)

end SwiftInventory.Digest
