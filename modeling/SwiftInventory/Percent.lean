import SwiftInventory.Text.Basic
import SwiftInventory.Text.Utf8

namespace SwiftInventory.Percent

open Text

/-- Slash and colon stay as they are: inside one part they are ordinary characters. -/
def isPlain (octet : UInt8) : Bool :=
  let c := Char.ofNat octet.toNat
  octet < 0x80 && (c.isAlphanum || "_.-~/:".toList.contains c)

def encodeOctet (octet : UInt8) : List Char :=
  if isPlain octet then [Char.ofNat octet.toNat] else '%' :: Hex.padded Hex.upper 2 octet.toNat

def encode (s : List Char) : List Char := (Utf8.encode s).flatMap encodeOctet

def octet? (high low : Char) : Option UInt8 :=
  match Hex.value? high, Hex.value? low with
  | some h, some l => some (UInt8.ofNat (h * 16 + l))
  | _, _ => none

/-- A percent sign without two digits after it stands for itself. -/
def octetsFrom (done : List UInt8) : List Char → List UInt8
  | '%' :: high :: low :: rest =>
    match octet? high low with
    | some octet => octetsFrom (octet :: done) rest
    | none => octetsFrom (0x25 :: done) (high :: low :: rest)
  | c :: rest => octetsFrom ((String.utf8EncodeChar c).reverse ++ done) rest
  | [] => done.reverse

def decode (s : List Char) : List Char := Utf8.decodeLossy (octetsFrom [] s)

end SwiftInventory.Percent
