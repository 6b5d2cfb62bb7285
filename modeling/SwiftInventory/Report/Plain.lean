import SwiftInventory.Report.Console

namespace SwiftInventory

namespace Markup

/-- The text with its tags left out. An odd number of backslashes before a tag makes it text;
`slashes` of them have been read and not written. -/
def plainFrom (slashes skipped : Nat) : List Char → List Char
  | [] => List.replicate slashes '\\'
  | c :: rest =>
    match skipped with
    | skipped + 1 => plainFrom 0 skipped rest
    | 0 =>
      if c == '\\' then plainFrom (slashes + 1) 0 rest
      else
        match if c == '[' then tagLength? rest else none with
        | some length =>
          if slashes % 2 == 0 then List.replicate (slashes / 2) '\\' ++ plainFrom 0 length rest
          else List.replicate (slashes / 2) '\\' ++ c :: plainFrom 0 0 rest
        | none => List.replicate slashes '\\' ++ c :: plainFrom 0 0 rest

def plain (s : String) : String := String.ofList (plainFrom 0 0 s.toList)

end Markup

namespace Report

def Column.padded (c : Column) : List String :=
  let cells := (c.header :: c.cells).map Markup.plain
  let width := (cells.map String.length).foldl max 0
  cells.map fun cell ↦ cell.pushn ' ' (width - cell.length)

def rows (columns : List (List String)) : List String :=
  columns.foldr (List.zipWith fun cell row ↦ cell ++ "  " ++ row)
    (List.replicate ((columns.map List.length).foldl max 0) "")

def Block.plainLines : Block → List String
  | panel content title _ _ => title.toList ++ [Markup.plain content]
  | table title columns => title :: rows (columns.map Column.padded)
  | markup text => [Markup.plain text]

end Report

end SwiftInventory
