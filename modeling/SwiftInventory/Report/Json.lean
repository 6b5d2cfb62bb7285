import SwiftInventory.Json.Basic
import SwiftInventory.Record.Basic

namespace SwiftInventory

def programVersion : String := "0.1.0"

def programName : String := "spm-shield"

open Json (string ofOption ofNat)

def Identifier.toJson (i : Identifier) : Json :=
  .object [
    ("type", string (match i with | .packageUrl .. => "purl" | .generic .. => "generic")),
    ("value", string i.value),
    ("confidence", string i.confidence.label)]

def Evidence.toJson (e : Evidence) : Json :=
  .object [
    ("type", string e.kind.label),
    ("source", string e.source),
    ("name", string e.name),
    ("value", string e.value),
    ("confidence", string e.confidence.label)]

def Checksums.toJson (c : Checksums) : Json :=
  .object [("sha1", string c.sha1), ("sha256", string c.sha256), ("md5", string c.md5)]

def Record.toJson (r : Record) : Json :=
  .object [
    ("name", ofOption r.name),
    ("version", ofOption r.version),
    ("ecosystem", ofOption r.ecosystem),
    ("display_name", ofOption r.displayName),
    ("package_path", ofOption r.packagePath),
    ("file_path", string r.filePath.toString),
    ("actual_file", string r.actualFile.toString),
    ("virtual", .bool r.isVirtual),
    ("identifiers", .array (r.identifiers.map Identifier.toJson)),
    ("evidence", .array (r.evidence.map Evidence.toJson)),
    ("checksums", match r.checksums with
      | some c => c.toJson
      | none => .null)]

namespace Report

structure Failure where
  path : Path
  message : String

def Failure.toJson (f : Failure) : Json :=
  .object [("file", string f.path.toString), ("error", string f.message)]

def scanInfo (timestamp : String) (total : Nat) (scanTime : Number) : Json :=
  .object [
    ("timestamp", string timestamp),
    ("total_dependencies", ofNat total),
    ("scan_time", .number scanTime),
    ("tool", string programName),
    ("version", string programVersion)]

/-- Without further data the report has no member for it. -/
def toJson (timestamp : String) (records : List Record) (failures : List Failure)
    (scanTime : Number) (metadata : List (String × Json)) : Json :=
  .object ([
    ("scan_info", scanInfo timestamp records.length scanTime),
    ("dependencies", .array (records.map Record.toJson)),
    ("errors", .array (failures.map Failure.toJson))] ++
    if metadata.isEmpty then [] else [("metadata", .object metadata)])

def setMember (members : List (String × Json)) (key : String) (value : Json) :
    List (String × Json) :=
  if members.any (·.1 == key) then
    members.map fun m ↦ if m.1 == key then (key, value) else m
  else members ++ [(key, value)]

end Report

end SwiftInventory
