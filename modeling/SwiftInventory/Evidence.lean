import SwiftInventory.Identifier

namespace SwiftInventory

inductive EvidenceKind
  | vendor
  | product
  | version
deriving DecidableEq

namespace EvidenceKind

def label : EvidenceKind → String
  | vendor => "vendor"
  | product => "product"
  | version => "version"

def all : List EvidenceKind := [vendor, product, version]

def ofLabel? (s : String) : Option EvidenceKind := all.find? (·.label == s)

def unknownLabelMessage (s : String) : String := Text.quoted s ++ " is not a valid EvidenceType"

end EvidenceKind

structure Evidence where
  kind : EvidenceKind
  source : String
  name : String
  value : String
  confidence : Confidence
deriving DecidableEq

end SwiftInventory
