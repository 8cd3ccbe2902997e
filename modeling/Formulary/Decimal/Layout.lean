import Formulary.Decimal.Shortest

/-! Number texts. A layout says which shortest decimals are written positionally, whether a whole
number keeps `.0`, and how an exponent is spelled. Numbers with fixed places are rounded from the
exact binary value. -/
namespace Formulary.Decimal

/-- How the shortest decimal of a number is spelled. The order of a number is the power of ten of
its first digit. -/
structure Layout where
  tie : Tie
  positional : Int → Bool
  pointZero : Bool
  exponentPlus : Bool

/-- Always positional, whole numbers without a point. -/
def Layout.plain : Layout :=
  ⟨.up,fun _ => true,false,false⟩

/-- The numbers of a data file: positional from `0.00001` to below `10 ^ 16`, exponents signed. -/
def Layout.data : Layout :=
  ⟨.even,fun order => -5 ≤ order && order < 16,true,true⟩

/-- The numbers of a journal: positional from `0.0001` to below `10 ^ 16`. -/
def Layout.journal : Layout :=
  ⟨.up,fun order => -4 ≤ order && order < 16,true,false⟩

def signText (negative : Bool) : List Char :=
  if negative then ['-'] else []

def digitsOf (n : Nat) : List Char :=
  Nat.toDigits 10 n

/-- Digits with a decimal point so that they stand for `digits · 10 ^ exponent`. -/
def positionalText (digits : List Char) (exponent : Int) (pointZero : Bool) : List Char :=
  let point := digits.length + exponent
  if 0 ≤ exponent then
    digits ++ List.replicate exponent.toNat '0' ++ (if pointZero then ['.','0'] else [])
  else if 0 < point then
    digits.take point.toNat ++ '.' :: digits.drop point.toNat
  else '0' :: '.' :: List.replicate (-point).toNat '0' ++ digits

/-- One digit, the others behind a point, and the power of ten. -/
def exponentText (digits : List Char) (exponent : Int) (plus : Bool) : List Char :=
  let order := digits.length - 1 + exponent
  let mantissa := match digits with
    | [] => []
    | [d] => [d]
    | d :: rest => d :: '.' :: rest
  let sign := if order < 0 then ['-'] else if plus then ['+'] else []
  mantissa ++ 'e' :: sign ++ digitsOf order.natAbs

/-- The spelling of a shortest decimal. -/
def Layout.spell (layout : Layout) (s : Scientific) : List Char :=
  let digits := digitsOf s.significand
  if layout.positional (digits.length - 1 + s.exponent)
  then positionalText digits s.exponent layout.pointZero
  else exponentText digits s.exponent layout.exponentPlus

def Layout.chars (layout : Layout) (v : Float) : List Char :=
  match parts v with
  | .nan => ['N','a','N']
  | .infinite negative => signText negative ++ ['i','n','f']
  | .finite negative mantissa exponent =>
    signText negative ++
      (if mantissa = 0 then positionalText ['0'] 0 layout.pointZero
       else layout.spell (shortest layout.tie mantissa exponent))

def Layout.text (layout : Layout) (v : Float) : String :=
  String.ofList (layout.chars v)

/-- A natural number of units of `10 ^ -places`, with at least one digit before the point. -/
def fixedText (places n : Nat) : List Char :=
  let digits := digitsOf n
  let padded := List.replicate (places + 1 - digits.length) '0' ++ digits
  let point := padded.length - places
  padded.take point ++ '.' :: padded.drop point

/-- A number with so many places, the exact value rounded to nearest, a tie to the even digit. -/
def fixed (places : Nat) (v : Float) : String :=
  String.ofList <| match parts v with
    | .nan => ['N','a','N']
    | .infinite negative => signText negative ++ ['i','n','f']
    | .finite negative mantissa exponent =>
      let ratio := powTwo exponent
      signText negative ++
        fixedText places (roundDiv .even (mantissa * ratio.1 * Nat.pow 10 places) ratio.2)

end Formulary.Decimal
