import SwiftInventory.Lock.Pin
import SwiftInventory.Record.Basic

namespace SwiftInventory.Lock

def fileName : String := "Package.resolved"

def ecosystem : String := "swift"

def recordOf (actualFile : Path) (pin : Pin) : Except SlashesOnly Record := do
  let i ← Identifier.ofCoordinates (some ecosystem) (some pin.name) (nonEmpty? (some pin.version))
    .highest
  let package := pin.name ++ ":" ++ pin.version
  .ok {
    Record.ofFile actualFile true with
    ecosystem := some ecosystem
    name := some pin.name
    version := some pin.version
    packagePath := some package
    displayName := some package
    checksums := some (.ofText package)
    evidence := [
      ⟨.vendor, fileName, "name", pin.name, .highest⟩,
      ⟨.product, fileName, "name", pin.name, .highest⟩,
      ⟨.version, fileName, "version", pin.version, .highest⟩]
    identifiers := [i] }

/-- One faulty pin spoils the whole file. -/
def extract (actualFile : Path) (contents : String) : Except SlashesOnly (List Record) :=
  (pins contents.toList).mapM (recordOf actualFile)

end SwiftInventory.Lock
