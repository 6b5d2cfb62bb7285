import SwiftInventory.Report.Json
import SwiftInventory.Report.Markup

namespace SwiftInventory.Report

structure Column where
  header : String
  style : String
  noWrap : Bool
  cells : List String
deriving DecidableEq

/-- A panel fills the width of the console if it expands. -/
inductive Block
  | panel (content : String) (title : Option String) (style : String) (expand : Bool)
  | table (title : String) (columns : List Column)
  | markup (text : String)
deriving DecidableEq

def summaryText (records : List Record) (failures : List Failure) (scanTime : Double) : String :=
  let fromLock := (records.filter (·.isVirtual)).length
  "\n".intercalate [
    "Dependencies found: " ++ toString records.length,
    "From Package.swift: " ++ toString (records.length - fromLock),
    "From Package.resolved: " ++ toString fromLock,
    "Files failed: " ++ toString failures.length,
    "Scan time: " ++ String.ofList scanTime.textToHundredths ++ "s"]

def summary (records : List Record) (failures : List Failure) (scanTime : Double) : Block :=
  .panel (summaryText records failures scanTime) (some "Scan Summary")
    (if failures.isEmpty then "green" else "red") true

def firstOf (texts : List (Option String)) (otherwise : String) : String :=
  (texts.findSome? nonEmpty?).getD otherwise

def packageCell (r : Record) : String := firstOf [r.name, r.displayName] ""

def versionCell (r : Record) : String := firstOf [r.version] "unknown"

def identifierCell (r : Record) : String :=
  firstOf [some (", ".intercalate (r.identifiers.map (·.value)))] "-"

def packageTable (records : List Record) : Block :=
  .table "Swift Packages" [
    ⟨"Package", "cyan", true, records.map packageCell⟩,
    ⟨"Version", "blue", false, records.map versionCell⟩,
    ⟨"Ecosystem", "magenta", false, records.map fun r ↦ r.ecosystem.getD ""⟩,
    ⟨"Identifier", "green", false, records.map identifierCell⟩,
    ⟨"Source", "white", false, records.map (·.filePath.toString)⟩]

def nothingFound : Block := .panel "No Swift packages found" none "yellow" true

def failureLine (f : Failure) : Block :=
  .markup ("[red]✗ " ++ Markup.escape f.path.toString ++ ": " ++ Markup.escape f.message ++ "[/red]")

def toBlocks (records : List Record) (failures : List Failure) (scanTime : Double) : List Block :=
  summary records failures scanTime ::
    (if records.isEmpty then nothingFound else packageTable records) :: failures.map failureLine

end SwiftInventory.Report
