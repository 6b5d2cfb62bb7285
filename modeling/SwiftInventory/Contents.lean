import SwiftInventory.Config.Basic
import SwiftInventory.FileTree
import SwiftInventory.Text.Basic
import SwiftInventory.Text.Utf8

namespace SwiftInventory

inductive Unreadable.Cause
  | missing
  | forbidden
  | tooLarge (size limit : Nat)
  | malformed (fault : Text.Utf8.Fault)
deriving DecidableEq

structure Unreadable where
  path : Path
  cause : Unreadable.Cause
deriving DecidableEq

/-- What comes in place of a text. That a path is too long is no statement about a file. -/
inductive ReadFault
  | unreadable (e : Unreadable)
  | pathTooLong (e : PathTooLong)
deriving DecidableEq

namespace Unreadable

def reasonText : Text.Utf8.Reason → String
  | .invalidStart => "invalid start byte"
  | .invalidContinuation => "invalid continuation byte"
  | .unexpectedEnd => "unexpected end of data"

/-- A single octet is shown; of a longer sequence only its place is. -/
def faultText (fault : Text.Utf8.Fault) : String :=
  let place :=
    if fault.size == 1 then
      "byte 0x" ++ String.ofList (Text.Hex.padded Text.Hex.lower 2 fault.octet.toNat) ++
        " in position " ++ toString fault.position
    else
      "bytes in position " ++ toString fault.position ++ "-" ++
        toString (fault.position + fault.size - 1)
  "'utf-8' codec can't decode " ++ place ++ ": " ++ reasonText fault.reason

def message (e : Unreadable) : String :=
  match e.cause with
  | .missing => "File not found: " ++ toString e.path
  | .forbidden => "File is not readable: " ++ toString e.path
  | .tooLarge size limit =>
    "File too large: " ++ toString size ++ " bytes (max: " ++ toString limit ++ ")"
  | .malformed fault =>
    "Problem occurred while reading dependency file " ++ toString e.path ++ ": " ++ faultText fault

end Unreadable

def textOf (config : ScanConfig) (p : Path) (octets : List UInt8) :
    Except Unreadable String :=
  if config.maxOctets < octets.length then
    .error ⟨p, .tooLarge octets.length config.maxOctets⟩
  else
    match Text.Utf8.decode octets with
    | .error fault => .error ⟨p, .malformed fault⟩
    | .ok text => .ok (String.ofList (Text.unifyLineEnds text))

def FileTree.contents (t : FileTree) (config : ScanConfig) (p : Path) : Except ReadFault String :=
  match t.read? p with
  | .error e => .error (.pathTooLong e)
  | .ok none => .error (.unreadable ⟨p, .missing⟩)
  | .ok (some octets) =>
    if t.isReadable p then (textOf config p octets).mapError .unreadable
    else .error (.unreadable ⟨p, .forbidden⟩)

end SwiftInventory
