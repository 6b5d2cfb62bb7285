namespace SwiftInventory

/-- The size limit is in units of 1024 · 1024 octets and leaves room for some text. -/
structure ScanConfig where
  manifestEnabled : Bool := true
  lockEnabled : Bool := true
  maxMegabytes : Nat := 5
  ignorePatterns : List String := []
  maxMegabytes_pos : 0 < maxMegabytes := by decide

namespace ScanConfig

structure NotPositive where

def NotPositive.message (_ : NotPositive) : String := "max_file_size_mb must be positive"

def make (manifestEnabled lockEnabled : Bool) (maxMegabytes : Int) (ignorePatterns : List String) :
    Except NotPositive ScanConfig :=
  if h : 0 < maxMegabytes.toNat then
    .ok ⟨manifestEnabled, lockEnabled, maxMegabytes.toNat, ignorePatterns, h⟩
  else .error ⟨⟩

variable (config : ScanConfig)

def maxOctets : Nat := config.maxMegabytes * 1024 * 1024

def isEnabled (parserType : String) : Bool :=
  if parserType == "manifest" then config.manifestEnabled
  else if parserType == "resolved" then config.lockEnabled
  else false

theorem isEnabled_iff {parserType : String} :
    config.isEnabled parserType = true ↔
      parserType = "manifest" ∧ config.manifestEnabled = true ∨
        parserType = "resolved" ∧ config.lockEnabled = true := by
  rw [isEnabled]
  split <;> rename_i hmanifest
  · simp [beq_iff_eq.1 hmanifest]
  · split <;> rename_i hlock
    · simp [beq_iff_eq.1 hlock]
    · simp_all

end ScanConfig

end SwiftInventory
