import SwiftInventory.Number.Basic
import SwiftInventory.Text.Basic

namespace SwiftInventory

inductive Json
  | null
  | bool (b : Bool)
  | number (n : Number)
  | string (s : String)
  | array (elements : List Json)
  | object (members : List (String × Json))

namespace Json

def ofOption (s : Option String) : Json :=
  match s with
  | some s => string s
  | none => null

def ofNat (n : Nat) : Json := number (.whole n)

def escapeChar (c : Char) : List Char :=
  if c == '"' then ['\\', '"']
  else if c == '\\' then ['\\', '\\']
  else if c == '\n' then ['\\', 'n']
  else if c == '\r' then ['\\', 'r']
  else if c == '\t' then ['\\', 't']
  else if c == '\x08' then ['\\', 'b']
  else if c == '\x0c' then ['\\', 'f']
  else if c.toNat < 0x20 then '\\' :: 'u' :: Text.Hex.padded Text.Hex.lower 4 c.toNat
  else [c]

def stringText (s : String) : List Char := '"' :: s.toList.flatMap escapeChar ++ ['"']

def newLine (level : Nat) : List Char := '\n' :: List.replicate (2 * level) ' '

def enclosed (opening closing : Char) (level : Nat) (items : List (List Char)) : List Char :=
  if items.isEmpty then [opening, closing]
  else
    opening :: newLine (level + 1) ++ (',' :: newLine (level + 1)).intercalate items ++
      newLine level ++ [closing]

mutual

def textAt (level : Nat) : Json → List Char
  | null => "null".toList
  | bool true => "true".toList
  | bool false => "false".toList
  | number n => n.text
  | string s => stringText s
  | array elements => enclosed '[' ']' level (elementTexts (level + 1) elements)
  | object members => enclosed '\x7b' '\x7d' level (memberTexts (level + 1) members)

def elementTexts (level : Nat) : List Json → List (List Char)
  | [] => []
  | j :: rest => textAt level j :: elementTexts level rest

def memberTexts (level : Nat) : List (String × Json) → List (List Char)
  | [] => []
  | (key, j) :: rest =>
    (stringText key ++ ':' :: ' ' :: textAt level j) :: memberTexts level rest

end

def text (j : Json) : String := String.ofList (textAt 0 j)

end Json

end SwiftInventory
