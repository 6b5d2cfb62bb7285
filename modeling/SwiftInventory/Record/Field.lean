import SwiftInventory.Record.Basic

namespace SwiftInventory

namespace Field

open Text

def valueAt? (word s : List Char) : Option (List Char) :=
  match (word.isPrefixOf? s).map trimStart with
  | some (':' :: rest) =>
    match trimStart rest with
    | '"' :: rest => some rest
    | _ => none
  | _ => none

def find? (word : List Char) : List Char → Option (List Char)
  | [] => valueAt? word []
  | c :: rest =>
    match valueAt? word (c :: rest) with
    | some value => some value
    | none => find? word rest

/-- The text up to the next quote, or to the end, without the blanks around it; empty when
there is no such field. -/
def read (word s : List Char) : List Char :=
  match find? word s with
  | some rest => trim (rest.takeWhile (· != '"'))
  | none => []

/-- How a field that was read is noted as evidence. Where source or name are missing or empty,
the file name and the word of the field stand in. -/
structure Note where
  kind : EvidenceKind
  source : Option String
  name : Option String
  confidence : Confidence

end Field

def Record.readField (r : Record) (word s : String) (note? : Option Field.Note) : String × Record :=
  let value := String.ofList (Field.read word.toList s.toList)
  match note? with
  | some note =>
    if value.isEmpty then (value, r)
    else
      (value, r.addEvidence {
        kind := note.kind
        source := (nonEmpty? note.source).getD r.fileName
        name := (nonEmpty? note.name).getD word
        value := value
        confidence := note.confidence })
  | none => (value, r)

end SwiftInventory
