import Formulary.Decimal.Shortest

/-! Reading a decimal text as the nearest binary64 number. Digits may stand on either side of the
point, an exponent needs a digit, and `inf`, `infinity` and `nan` are read in any case; blanks and
digit separators are refused. -/
namespace Formulary.Decimal

/-- `significand · 10 ^ exponent` as the nearest number. Outside the orders that are computed, the
value lies beyond the greatest number or below half of the least. -/
def ofDecimal (negative : Bool) (significand : Nat) (exponent : Int) : Float :=
  let order := digitCount significand + exponent
  let scale := powTen exponent
  if significand = 0 ∨ order < -330 then ofMagnitude negative 0
  else if 310 < order then ofMagnitude negative infinityBits
  else ofRatio negative (significand * scale.1) scale.2

def digitsValue (digits : List Char) : Nat :=
  Nat.ofDigitChars 10 digits 0

/-- A sign at the front of a text and what follows it. -/
def readSign : List Char → Bool × List Char
  | '-' :: rest => (true,rest)
  | '+' :: rest => (false,rest)
  | s => (false,s)

/-- The power of ten after a mantissa; none is zero. -/
def readExponent? : List Char → Option Int
  | [] => some 0
  | e :: rest =>
    let (negative,digits) := readSign rest
    if (e == 'e' || e == 'E') && !digits.isEmpty && digits.all Char.isDigit
    then some (if negative then -(digitsValue digits : Int) else digitsValue digits)
    else none

/-- Digits behind a decimal point, if there is one, and what follows. -/
def readFraction : List Char → List Char × List Char
  | '.' :: rest => (rest.takeWhile Char.isDigit,rest.dropWhile Char.isDigit)
  | s => ([],s)

/-- A decimal without its sign. -/
def readMagnitude? (negative : Bool) (s : List Char) : Option Float :=
  let whole := s.takeWhile Char.isDigit
  let (fraction,rest) := readFraction (s.dropWhile Char.isDigit)
  if whole.isEmpty && fraction.isEmpty then none
  else (readExponent? rest).map fun exponent =>
    ofDecimal negative (digitsValue (whole ++ fraction)) (exponent - fraction.length)

/-- The numbers that are written by name, without their sign. -/
def readName? (negative : Bool) (s : List Char) : Option Float :=
  let name := s.map Char.toLower
  if name = ['i','n','f'] ∨ name = ['i','n','f','i','n','i','t','y']
  then some (ofMagnitude negative infinityBits)
  else if name = ['n','a','n'] then some (Float.ofBits 0x7FF8000000000000)
  else none

def readChars? (s : List Char) : Option Float :=
  let (negative,rest) := readSign s
  (readMagnitude? negative rest).or (readName? negative rest)

def read? (s : String) : Option Float :=
  readChars? s.toList

/-- A natural number of at most sixty-four bits, an optional `+` before its digits. -/
def readNatural? (s : String) : Option Nat :=
  let digits := match s.toList with
    | '+' :: rest => rest
    | all => all
  if digits.isEmpty || !digits.all Char.isDigit then none
  else if digitsValue digits < Nat.pow 2 64 then some (digitsValue digits) else none

end Formulary.Decimal
