import SwiftInventory.Json.Basic

namespace SwiftInventory.Json

def IsBlank (s : List Char) : Prop := ∀ c ∈ s, c ∈ " \t\n\r".toList

def IsFigures (s : List Char) : Prop := s ≠ [] ∧ ∀ c ∈ s, c.isDigit = true

def IsWholePart (s : List Char) : Prop := IsFigures s ∧ (s.length = 1 ∨ s.head? ≠ some '0')

inductive IsFraction : List Char → Prop
  | none : IsFraction []
  | some {figures : List Char} (h : IsFigures figures) : IsFraction ('.' :: figures)

inductive IsPower : List Char → Prop
  | none : IsPower []
  | some {mark : Char} {sign figures : List Char} (hmark : mark = 'e' ∨ mark = 'E')
      (hsign : sign = [] ∨ sign = ['+'] ∨ sign = ['-']) (h : IsFigures figures) :
      IsPower (mark :: (sign ++ figures))

inductive IsNumber : List Char → Prop
  | mk {sign whole fraction power : List Char} (hsign : sign = [] ∨ sign = ['-'])
      (hwhole : IsWholePart whole) (hfraction : IsFraction fraction) (hpower : IsPower power) :
      IsNumber (sign ++ whole ++ fraction ++ power)

/-- What may stand between the quotes of a string. -/
inductive IsCharacters : List Char → Prop
  | nil : IsCharacters []
  | plain {c : Char} {s : List Char} (hcontrol : 0x20 ≤ c.toNat) (hquote : c ≠ '"')
      (hescape : c ≠ '\\') (h : IsCharacters s) : IsCharacters (c :: s)
  | escape {c : Char} {s : List Char} (hc : c ∈ "\"\\/bfnrt".toList) (h : IsCharacters s) :
      IsCharacters ('\\' :: c :: s)
  | unit {figures s : List Char} (hlength : figures.length = 4)
      (hfigures : ∀ c ∈ figures, (Text.Hex.value? c).isSome = true) (h : IsCharacters s) :
      IsCharacters ('\\' :: 'u' :: (figures ++ s))

inductive IsString : List Char → Prop
  | mk {s : List Char} (h : IsCharacters s) : IsString ('"' :: (s ++ ['"']))

mutual

inductive IsValue : List Char → Prop
  | null : IsValue "null".toList
  | true : IsValue "true".toList
  | false : IsValue "false".toList
  | number {s : List Char} (h : IsNumber s) : IsValue s
  | string {s : List Char} (h : IsString s) : IsValue s
  | emptyArray {s : List Char} (h : IsBlank s) : IsValue ('[' :: (s ++ [']']))
  | array {s : List Char} (h : IsElements s) : IsValue ('[' :: (s ++ [']']))
  | emptyObject {s : List Char} (h : IsBlank s) : IsValue ('\x7b' :: (s ++ ['\x7d']))
  | object {s : List Char} (h : IsMembers s) : IsValue ('\x7b' :: (s ++ ['\x7d']))

inductive IsElement : List Char → Prop
  | mk {before s after : List Char} (hbefore : IsBlank before) (h : IsValue s)
      (hafter : IsBlank after) : IsElement (before ++ s ++ after)

inductive IsElements : List Char → Prop
  | last {s : List Char} (h : IsElement s) : IsElements s
  | cons {s rest : List Char} (h : IsElement s) (hrest : IsElements rest) :
      IsElements (s ++ ',' :: rest)

inductive IsMember : List Char → Prop
  | mk {before key after s : List Char} (hbefore : IsBlank before) (hkey : IsString key)
      (hafter : IsBlank after) (h : IsElement s) : IsMember (before ++ key ++ after ++ ':' :: s)

inductive IsMembers : List Char → Prop
  | last {s : List Char} (h : IsMember s) : IsMembers s
  | cons {s rest : List Char} (h : IsMember s) (hrest : IsMembers rest) :
      IsMembers (s ++ ',' :: rest)

end

def IsText (s : String) : Prop := IsElement s.toList

end SwiftInventory.Json
