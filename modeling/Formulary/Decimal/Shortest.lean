import Formulary.Decimal.Binary64

/-! The shortest decimal of a finite binary64 number: the fewest digits that read back to it, and of
those the nearest. On the grid of each digit count only the two neighbours of the number are tried.
-/
namespace Formulary.Decimal

/-- The decimal `significand · 10 ^ exponent`. -/
structure Scientific where
  significand : Nat
  exponent : Int
  deriving DecidableEq

/-- How many decimal digits a natural number has. -/
def digitCount (n : Nat) : Nat :=
  (Nat.toDigits 10 n).length

/-- The `k` with `10 ^ (k - 1) ≤ num / den < 10 ^ k`, for positive arguments. -/
def decimalOrder (num den : Nat) : Int :=
  if den ≤ num then digitCount (num / den)
  else 1 - digitCount ((den + num - 1) / num - 1)

/-- The interval of the decimals that read back to a positive number, as the halves of the gaps to
its two neighbours in units of a quarter of its last place. -/
structure Interval where
  below : Nat
  above : Nat
  closed : Bool

def interval (mantissa : Nat) (exponent : Int) : Interval :=
  ⟨if mantissa = Nat.pow 2 52 ∧ leastExponent < exponent then 1 else 2,2,mantissa % 2 == 0⟩

/-- Whether the natural `d` lies in the interval around `4 * mantissa`, all scaled: `d * den`
against multiples of `num`. -/
def Interval.holds (i : Interval) (mantissa num den d : Nat) : Bool :=
  let low := (4 * mantissa - i.below) * num
  let high := (4 * mantissa + i.above) * num
  if i.closed then decide (low ≤ d * den) && decide (d * den ≤ high)
  else decide (low < d * den) && decide (d * den < high)

/-- Drops the zeros at the end of a significand. -/
def Scientific.normal (s : Scientific) : Scientific :=
  let digits := Nat.toDigits 10 s.significand
  let zeros := (digits.reverse.takeWhile (· == '0')).length
  ⟨s.significand / Nat.pow 10 zeros,s.exponent + zeros⟩

/-- The neighbour of the number on the grid of multiples of `10 ^ e` that reads back to it, the
nearer of the two when both do. -/
def onGrid (tie : Tie) (mantissa : Nat) (exponent e : Int) : Option Scientific :=
  let unit := powTwo (exponent - 2)
  let grid := powTen e
  let num := unit.1 * grid.2
  let den := unit.2 * grid.1
  let i := interval mantissa exponent
  let below := 4 * mantissa * num / den
  let nearest := roundDiv tie (4 * mantissa * num) den
  if i.holds mantissa num den nearest then some ⟨nearest,e⟩
  else if i.holds mantissa num den below then some ⟨below,e⟩
  else if i.holds mantissa num den (below + 1) then some ⟨below + 1,e⟩
  else none

/-- The shortest decimal of `mantissa · 2 ^ exponent`. Seventeen digits always suffice. -/
def shortest (tie : Tie) (mantissa : Nat) (exponent : Int) : Scientific :=
  let ratio := powTwo exponent
  let order := decimalOrder (mantissa * ratio.1) ratio.2
  let found := (List.range 17).findSome? fun (n : Nat) =>
    onGrid tie mantissa exponent (order - 1 - n)
  (found.getD ⟨mantissa * ratio.1 / ratio.2,0⟩).normal

end Formulary.Decimal
