import SwiftInventory.Digest.Block

namespace SwiftInventory.Digest.Sha1

structure State where
  a : UInt32
  b : UInt32
  c : UInt32
  d : UInt32
  e : UInt32

def State.initial : State := ⟨0x67452301, 0xEFCDAB89, 0x98BADCFE, 0x10325476, 0xC3D2E1F0⟩

def State.add (s t : State) : State := ⟨s.a + t.a, s.b + t.b, s.c + t.c, s.d + t.d, s.e + t.e⟩

/-- The schedule is kept in reverse, so the latest word comes first. -/
def extend : Nat → List UInt32 → List UInt32
  | 0, recent => recent
  | n + 1, recent =>
    let mixed := recent.getD 2 0 ^^^ recent.getD 7 0 ^^^ recent.getD 13 0 ^^^ recent.getD 15 0
    extend n (rotateLeft mixed 1 :: recent)

def schedule (block : List UInt32) : List UInt32 := (extend 64 block.reverse).reverse

def stage (s : State) (round : Nat) : UInt32 × UInt32 :=
  if round < 20 then ((s.b &&& s.c) ||| (~~~s.b &&& s.d), 0x5A827999)
  else if round < 40 then (s.b ^^^ s.c ^^^ s.d, 0x6ED9EBA1)
  else if round < 60 then ((s.b &&& s.c) ||| (s.b &&& s.d) ||| (s.c &&& s.d), 0x8F1BBCDC)
  else (s.b ^^^ s.c ^^^ s.d, 0xCA62C1D6)

def round (s : State) (n : Nat) (word : UInt32) : State :=
  let (mixed, constant) := stage s n
  ⟨rotateLeft s.a 5 + mixed + s.e + constant + word, s.a, rotateLeft s.b 30, s.c, s.d⟩

def compress (s : State) (block : List UInt32) : State :=
  s.add (((List.range 80).zip (schedule block)).foldl (fun s (n, w) ↦ round s n w) s)

def digest (message : List UInt8) : String :=
  let s := (blocks .bigEndian message).foldl compress .initial
  hex .bigEndian [s.a, s.b, s.c, s.d, s.e]

end SwiftInventory.Digest.Sha1
