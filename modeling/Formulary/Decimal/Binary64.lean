/-! Binary64 numbers taken apart and put together in exact natural arithmetic. A finite number is
`± mantissa · 2 ^ exponent`; a ratio of naturals is rounded to the nearest such number, a tie going
to the even mantissa. Arithmetic on the numbers themselves lies outside. -/
namespace Formulary.Decimal

/-- Which neighbour takes a value that lies half way between two. -/
inductive Tie
  | even
  | up
  deriving DecidableEq

/-- The nearest natural number to `num / den`. -/
def roundDiv (tie : Tie) (num den : Nat) : Nat :=
  let quotient := num / den
  let twice := 2 * (num % den)
  if twice < den then quotient
  else if den < twice then quotient + 1
  else match tie with
    | .up => quotient + 1
    | .even => quotient + quotient % 2

/-- A number taken apart. -/
inductive Parts
  | nan
  | infinite (negative : Bool)
  | finite (negative : Bool) (mantissa : Nat) (exponent : Int)
  deriving DecidableEq

/-- The exponent of the subnormal numbers, below which none lies. -/
def leastExponent : Int := -1074

/-- The first pattern of magnitude bits that is no finite number. -/
def infinityBits : Nat := 2047 * Nat.pow 2 52

def parts (v : Float) : Parts :=
  let bits : Nat := v.toBits.toNat
  let negative := decide (Nat.pow 2 63 ≤ bits)
  let biased : Nat := bits / Nat.pow 2 52 % 2048
  let fraction : Nat := bits % Nat.pow 2 52
  if biased = 2047 then
    if fraction = 0 then .infinite negative else .nan
  else if biased = 0 then .finite negative fraction leastExponent
  else .finite negative (fraction + Nat.pow 2 52) (leastExponent + biased - 1)

/-- The number with a sign and the lower sixty-three bits; larger patterns give infinity. -/
def ofMagnitude (negative : Bool) (magnitude : Nat) : Float :=
  Float.ofBits (UInt64.ofNat ((if negative then Nat.pow 2 63 else 0) + min magnitude infinityBits))

/-- The bits of `mantissa · 2 ^ exponent`. A mantissa of `2 ^ 53` carries into the exponent. -/
def magnitudeBits (mantissa : Nat) (exponent : Int) : Nat :=
  (exponent - leastExponent).toNat * Nat.pow 2 52 + mantissa

/-- `2 ^ e` as a ratio of two naturals. -/
def powTwo (e : Int) : Nat × Nat :=
  (Nat.pow 2 e.toNat,Nat.pow 2 (-e).toNat)

/-- `10 ^ e` as a ratio of two naturals. -/
def powTen (e : Int) : Nat × Nat :=
  (Nat.pow 10 e.toNat,Nat.pow 10 (-e).toNat)

/-- The greatest `e` with `2 ^ e ≤ num / den`, for positive arguments. -/
def binaryOrder (num den : Nat) : Int :=
  let e : Int := (Nat.log2 num : Int) - Nat.log2 den
  if (powTwo e).1 * den ≤ (powTwo e).2 * num then e else e - 1

/-- The binary64 number nearest to `num / den`, a tie going to the even mantissa. -/
def ofRatio (negative : Bool) (num den : Nat) : Float :=
  let exponent := max (binaryOrder num den - 52) leastExponent
  let scale := powTwo exponent
  if num = 0 then ofMagnitude negative 0
  else ofMagnitude negative
    (magnitudeBits (roundDiv .even (num * scale.2) (den * scale.1)) exponent)

end Formulary.Decimal
