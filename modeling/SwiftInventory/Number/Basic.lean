import SwiftInventory.Number.Double

namespace SwiftInventory

inductive Number
  | whole (n : Int)
  | double (x : Double)
deriving DecidableEq

namespace Number

def sign (negative : Bool) : List Char := if negative then ['-'] else []

def digits (n : Nat) : List Char := Nat.toDigits 10 n

def wholeText (n : Int) : List Char := sign (n < 0) ++ digits n.natAbs

def exponentText (power : Int) : List Char :=
  let figures := digits power.natAbs
  'e' :: (if power < 0 then '-' else '+') :: List.replicate (2 - figures.length) '0' ++ figures

/-- The figures of a number with the decimal point `point` places to the right of their start.
From 10 ^ 16 on and below 10 ^ -4 the number is written with an exponent. -/
def pointedText (figures : List Char) (point : Int) : List Char :=
  let zeros (n : Int) : List Char := List.replicate n.toNat '0'
  if -4 < point && point ≤ 16 then
    if point ≤ 0 then '0' :: '.' :: zeros (-point) ++ figures
    else if figures.length ≤ point then figures ++ zeros (point - figures.length) ++ ['.', '0']
    else figures.take point.toNat ++ '.' :: figures.drop point.toNat
  else
    let fraction := if figures.length ≤ 1 then [] else '.' :: figures.drop 1
    figures.take 1 ++ fraction ++ exponentText (point - 1)

def finiteText (x : FiniteDouble) : List Char :=
  if x.mantissa == 0 then sign x.negative ++ ['0', '.', '0']
  else
    let (n, power) := x.shortest
    sign x.negative ++ pointedText (digits n) ((digits n).length + power)

def text : Number → List Char
  | whole n => wholeText n
  | double (.finite x) => finiteText x
  | double (.infinite negative) => sign negative ++ "Infinity".toList
  | double .notANumber => "NaN".toList

/-- Past the greatest double a whole number has none that stands for it. -/
def toDouble? : Number → Option Double
  | whole n =>
    match Double.ofDecimal (n < 0) n.natAbs 0 with
    | .finite x => some (.finite x)
    | _ => none
  | double x => some x

end Number

def FiniteDouble.textToHundredths (x : FiniteDouble) : List Char :=
  let hundredths := x.toPlaces 2
  let places := Number.digits (hundredths % 100)
  Number.sign x.negative ++ Number.digits (hundredths / 100) ++
    '.' :: List.replicate (2 - places.length) '0' ++ places

def Double.textToHundredths : Double → List Char
  | finite x => x.textToHundredths
  | infinite negative => Number.sign negative ++ "inf".toList
  | notANumber => "nan".toList

end SwiftInventory
