namespace SwiftInventory.Text.Utf8

/-- A sequence of which `owed` octets are still to come. The next one lies between `low` and
`high`, which rules out overlong forms, surrogates and values past the last code point. -/
structure Pending where
  value : Nat
  size : Nat
  owed : Nat
  low : Nat := 0x80
  high : Nat := 0xBF
deriving DecidableEq

inductive Step
  | char (c : Char)
  | more (p : Pending)
  | refused

def start (octet : Nat) : Step :=
  if octet < 0x80 then .char (Char.ofNat octet)
  else if octet < 0xC2 then .refused
  else if octet < 0xE0 then .more { value := octet - 0xC0, size := 1, owed := 1 }
  else if octet < 0xF0 then
    .more {
      value := octet - 0xE0, size := 1, owed := 2
      low := if octet == 0xE0 then 0xA0 else 0x80
      high := if octet == 0xED then 0x9F else 0xBF }
  else if octet < 0xF5 then
    .more {
      value := octet - 0xF0, size := 1, owed := 3
      low := if octet == 0xF0 then 0x90 else 0x80
      high := if octet == 0xF4 then 0x8F else 0xBF }
  else .refused

def Pending.step (p : Pending) (octet : Nat) : Step :=
  if octet < p.low || p.high < octet then .refused
  else
    let value := p.value * 64 + (octet - 0x80)
    if p.owed ≤ 1 then .char (Char.ofNat value)
    else .more { value, size := p.size + 1, owed := p.owed - 1 }

inductive Reason
  | invalidStart
  | invalidContinuation
  | unexpectedEnd
deriving DecidableEq

/-- The refused sequence: `size` octets from `position`, the first of them `octet`. -/
structure Fault where
  position : Nat
  size : Nat
  octet : UInt8
  reason : Reason
deriving DecidableEq

/-- `position` counts the octets read so far, `done` holds the characters in reverse, and a
pending sequence comes with its first octet. -/
def decodeFrom (position : Nat) (done : List Char) :
    Option (UInt8 × Pending) → List UInt8 → Except Fault (List Char)
  | none, [] => .ok done.reverse
  | some (first, p), [] => .error ⟨position - p.size, p.size, first, .unexpectedEnd⟩
  | none, octet :: rest =>
    match start octet.toNat with
    | .char c => decodeFrom (position + 1) (c :: done) none rest
    | .more p => decodeFrom (position + 1) done (some (octet, p)) rest
    | .refused => .error ⟨position, 1, octet, .invalidStart⟩
  | some (first, p), octet :: rest =>
    match p.step octet.toNat with
    | .char c => decodeFrom (position + 1) (c :: done) none rest
    | .more p => decodeFrom (position + 1) done (some (first, p)) rest
    | .refused => .error ⟨position - p.size, p.size, first, .invalidContinuation⟩

def decode (octets : List UInt8) : Except Fault (List Char) := decodeFrom 0 [] none octets

def substitute (done : List Char) (octet : UInt8) : List Char × Option Pending :=
  match start octet.toNat with
  | .char c => (c :: done, none)
  | .more p => (done, some p)
  | .refused => ('\ufffd' :: done, none)

def decodeLossyFrom (done : List Char) : Option Pending → List UInt8 → List Char
  | none, [] => done.reverse
  | some _, [] => ('\ufffd' :: done).reverse
  | none, octet :: rest =>
    let (done, p) := substitute done octet
    decodeLossyFrom done p rest
  | some p, octet :: rest =>
    match p.step octet.toNat with
    | .char c => decodeLossyFrom (c :: done) none rest
    | .more p => decodeLossyFrom done (some p) rest
    | .refused =>
      let (done, p) := substitute ('\ufffd' :: done) octet
      decodeLossyFrom done p rest

/-- Every refused sequence becomes one replacement character. -/
def decodeLossy (octets : List UInt8) : List Char := decodeLossyFrom [] none octets

def encode (s : List Char) : List UInt8 := s.flatMap String.utf8EncodeChar

end SwiftInventory.Text.Utf8
