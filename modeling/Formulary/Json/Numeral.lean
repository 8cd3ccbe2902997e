import Formulary.Json.Value

/-! JSON numbers. The digits make a significand as long as it fits sixty-four bits; whole digits
that no longer fit count as zeros and further places are dropped. The significand is then multiplied
or divided by a rounded power of ten, so a long decimal may miss the nearest number. -/
namespace Formulary.Json

/-- A number as it is spelled. -/
structure Numeral where
  negative : Bool
  whole : List Char
  fraction : List Char
  exponent : Option (Bool × List Char)

/-- Takes digits into a significand while it fits, and gives the digits that are left. -/
def gather (significand : Nat) : List Char → Nat × List Char
  | [] => (significand,[])
  | d :: rest =>
    let next := significand * 10 + (d.toNat - '0'.toNat)
    if next < Nat.pow 2 64 then gather next rest else (significand,d :: rest)

/-- `10 ^ n` as the nearest number. -/
def powerOfTen (n : Nat) : Float :=
  Decimal.ofRatio false (Nat.pow 10 n) 1

/-- `significand · 10 ^ exponent`, or `none` beyond the greatest number. -/
def scaled? (significand : Nat) (exponent : Int) : Option Float :=
  let v := Decimal.ofRatio false significand 1
  if significand = 0 then some v
  else if 308 < exponent then none
  else if 0 ≤ exponent then
    let product := v * powerOfTen exponent.toNat
    if product.isFinite then some product else none
  else if -308 ≤ exponent then some (v / powerOfTen (-exponent).toNat)
  else if -616 ≤ exponent then
    some (v / powerOfTen 308 / powerOfTen (-exponent - 308).toNat)
  else some (Decimal.ofMagnitude false 0)

/-- The power of ten that an exponent stands for. -/
def exponentValue : Option (Bool × List Char) → Int
  | none => 0
  | some (negative,digits) =>
    if negative then -(Decimal.digitsValue digits : Int) else Decimal.digitsValue digits

/-- The number that a numeral denotes, `none` beyond the greatest one. -/
def Numeral.value? (n : Numeral) : Option Number :=
  let (whole,spare) := gather 0 n.whole
  if n.fraction.isEmpty && n.exponent.isNone && spare.isEmpty then
    if !n.negative then some (.natural whole)
    else if 0 < whole ∧ whole ≤ Nat.pow 2 63 then some (.negative whole)
    else some (.float (Decimal.ofRatio true whole 1))
  else
    let (significand,dropped) := gather whole n.fraction
    let places : Int := spare.length - (n.fraction.length - dropped.length : Nat)
    (scaled? significand (places + exponentValue n.exponent)).map fun v =>
      .float (if n.negative then -v else v)

/-- Digits at the front of a text, at least one. -/
def readDigits? (s : List Char) : Option (List Char × List Char) :=
  let digits := s.takeWhile Char.isDigit
  if digits.isEmpty then none else some (digits,s.dropWhile Char.isDigit)

def readPlaces? : List Char → Option (List Char × List Char)
  | '.' :: rest => readDigits? rest
  | s => some ([],s)

def readPower? : List Char → Option (Option (Bool × List Char) × List Char)
  | c :: rest =>
    if c = 'e' ∨ c = 'E' then
      let (negative,digits) := Decimal.readSign rest
      (readDigits? digits).map fun r => (some (negative,r.1),r.2)
    else some (none,c :: rest)
  | [] => some (none,[])

/-- Reads a number without its sign. A leading zero stands alone. -/
def readNumeral? (negative : Bool) (s : List Char) : Option (Numeral × List Char) := do
  let (whole,rest) ← readDigits? s
  if 1 < whole.length ∧ whole.head? = some '0' then none
  else
    let (fraction,rest) ← readPlaces? rest
    let (exponent,rest) ← readPower? rest
    return (⟨negative,whole,fraction,exponent⟩,rest)

end Formulary.Json
