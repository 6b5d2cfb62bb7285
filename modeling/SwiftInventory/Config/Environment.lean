import SwiftInventory.Config.Basic
import SwiftInventory.Message
import SwiftInventory.Text.Integer
import SwiftInventory.Text.Lowercase

namespace SwiftInventory

structure Environment where
  swiftEnabled : Option String := none
  resolvedEnabled : Option String := none
  maxFileSize : Option String := none

namespace Environment

open Text

def swiftEnabledVariable : String := "SPM_SHIELD_SWIFT_ENABLED"

def resolvedEnabledVariable : String := "SPM_SHIELD_RESOLVED_ENABLED"

def maxFileSizeVariable : String := "SPM_SHIELD_MAX_FILE_SIZE_MB"

def affirmations : List String := ["true", "1", "yes", "on"]

def flag (byDefault : Bool) (s : Option String) : Bool :=
  let word := String.ofList (lowercase (trim (s.getD "").toList))
  if word.isEmpty then byDefault else affirmations.contains word

def invalidSize : Message :=
  ⟨.warning, "Invalid integer value for " ++ maxFileSizeVariable ++ ", using default"⟩

def unusableSize : Message :=
  ⟨.warning, maxFileSizeVariable ++ " must be positive, using default"⟩

def applySize (config : ScanConfig) (s : Option String) : ScanConfig × List Message :=
  match s with
  | none => (config, [])
  | some s =>
    match Integer.read? s.toList with
    | none => (config, [invalidSize])
    | some n =>
      if h : 0 < n.toNat then
        ({ config with maxMegabytes := n.toNat, maxMegabytes_pos := h }, [])
      else (config, [unusableSize])

def config (env : Environment) : ScanConfig × List Message :=
  applySize {
    manifestEnabled := flag true env.swiftEnabled
    lockEnabled := flag true env.resolvedEnabled } env.maxFileSize

end Environment

end SwiftInventory
