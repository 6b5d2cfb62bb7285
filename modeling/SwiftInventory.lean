import SwiftInventory.Analyzer
import SwiftInventory.Checksums
import SwiftInventory.CommandLine.Arguments
import SwiftInventory.CommandLine.Run
import SwiftInventory.Config.Basic
import SwiftInventory.Config.Environment
import SwiftInventory.Contents
import SwiftInventory.Digest.Block
import SwiftInventory.Digest.Md5
import SwiftInventory.Digest.Sha1
import SwiftInventory.Digest.Sha256
import SwiftInventory.Discovery
import SwiftInventory.Evidence
import SwiftInventory.FileTree
import SwiftInventory.Glob
import SwiftInventory.Identifier
import SwiftInventory.Inventory
import SwiftInventory.Journal
import SwiftInventory.Journal.File
import SwiftInventory.Json.Basic
import SwiftInventory.Json.Reader
import SwiftInventory.Lock.Pin
import SwiftInventory.Lock.Reading
import SwiftInventory.Main
import SwiftInventory.Manifest.Declaration
import SwiftInventory.Manifest.Reading
import SwiftInventory.Message
import SwiftInventory.Number.Basic
import SwiftInventory.Number.Double
import SwiftInventory.PackageUrl.Basic
import SwiftInventory.PackageUrl.Checked
import SwiftInventory.PackageUrl.Reader
import SwiftInventory.Path
import SwiftInventory.Percent
import SwiftInventory.Proofs.AddedIdentifiers
import SwiftInventory.Proofs.Analysis
import SwiftInventory.Proofs.Contents
import SwiftInventory.Proofs.Digest
import SwiftInventory.Proofs.Discovery.Below
import SwiftInventory.Proofs.Discovery.ExtraPatterns
import SwiftInventory.Proofs.Discovery.FolderNames
import SwiftInventory.Proofs.Discovery.Ignoring
import SwiftInventory.Proofs.Discovery.Listing
import SwiftInventory.Proofs.Discovery.Placement
import SwiftInventory.Proofs.Environment
import SwiftInventory.Proofs.Escaping
import SwiftInventory.Proofs.FieldReading
import SwiftInventory.Proofs.FirstPlace
import SwiftInventory.Proofs.Glob
import SwiftInventory.Proofs.Growth
import SwiftInventory.Proofs.Identification
import SwiftInventory.Proofs.Journal.Calls
import SwiftInventory.Proofs.Journal.Settings
import SwiftInventory.Proofs.Json.Grammar
import SwiftInventory.Proofs.Json.Numeral
import SwiftInventory.Proofs.Json.ReadBack
import SwiftInventory.Proofs.Json.Strings
import SwiftInventory.Proofs.Json.Written
import SwiftInventory.Proofs.LineEnds
import SwiftInventory.Proofs.Lock.Acceptance
import SwiftInventory.Proofs.Lock.Cutting
import SwiftInventory.Proofs.Lock.Extraction
import SwiftInventory.Proofs.Lock.Grammar
import SwiftInventory.Proofs.Lock.Layout
import SwiftInventory.Proofs.Lock.Leftmost
import SwiftInventory.Proofs.Lock.NullVersion
import SwiftInventory.Proofs.Lock.Search
import SwiftInventory.Proofs.Lock.Starts
import SwiftInventory.Proofs.Lock.VersionLine
import SwiftInventory.Proofs.Manifest.Arguments
import SwiftInventory.Proofs.Manifest.Declaration
import SwiftInventory.Proofs.Manifest.Extraction
import SwiftInventory.Proofs.Manifest.FolderName
import SwiftInventory.Proofs.Manifest.Naming
import SwiftInventory.Proofs.Manifest.Overlap
import SwiftInventory.Proofs.Manifest.Repetition
import SwiftInventory.Proofs.Number.Rounding
import SwiftInventory.Proofs.Number.Shortest
import SwiftInventory.Proofs.Number.Text
import SwiftInventory.Proofs.PackageUrl.Denotation
import SwiftInventory.Proofs.PackageUrl.ReadBack
import SwiftInventory.Proofs.Pattern
import SwiftInventory.Proofs.Percent
import SwiftInventory.Proofs.QuotedField
import SwiftInventory.Proofs.Registration
import SwiftInventory.Proofs.Removal
import SwiftInventory.Proofs.Report.Literal
import SwiftInventory.Proofs.Report.ReadBack
import SwiftInventory.Proofs.Scan.Builtin
import SwiftInventory.Proofs.Scan.Identifiers
import SwiftInventory.Proofs.Scan.Interruption
import SwiftInventory.Proofs.Scan.Ledger
import SwiftInventory.Proofs.Scan.Naming
import SwiftInventory.Proofs.Scan.Run
import SwiftInventory.Proofs.Separation
import SwiftInventory.Proofs.Trimming
import SwiftInventory.Proofs.Utf8.Form
import SwiftInventory.Proofs.Utf8.Reading
import SwiftInventory.Proofs.WholeNumber
import SwiftInventory.Proofs.WrittenPath
import SwiftInventory.Record.Basic
import SwiftInventory.Record.Field
import SwiftInventory.Registry
import SwiftInventory.Report.Console
import SwiftInventory.Report.Json
import SwiftInventory.Report.Markup
import SwiftInventory.Report.Plain
import SwiftInventory.Text.Basic
import SwiftInventory.Text.Integer
import SwiftInventory.Text.Lowercase
import SwiftInventory.Text.Quoted
import SwiftInventory.Text.Utf8
import SwiftInventory.Text.Word
