import Formulary.Decimal.Reader

/-! JSON values. An object keeps its fields in order and may name one twice; a settled object has
every name once, in increasing order, with the last value given to it. -/
namespace Formulary.Json

/-- A natural below `2 ^ 64`, a negated natural from `1` to `2 ^ 63`, or a finite binary64 number.
-/
inductive Number
  | natural (n : Nat)
  | negative (n : Nat)
  | float (v : Float)

inductive Value
  | null
  | bool (b : Bool)
  | number (n : Number)
  | string (s : String)
  | array (items : List Value)
  | object (fields : List (String × Value))
  deriving Inhabited

def Value.natural (n : Nat) : Value :=
  .number (.natural n)

/-- A number that is not finite has no JSON form and becomes `null`. -/
def Value.float (v : Float) : Value :=
  if v.isFinite then .number (.float v) else .null

/-- A value that may be missing. -/
def Value.option {α : Type} (encode : α → Value) : Option α → Value
  | none => .null
  | some a => encode a

/-- Gives a name its value in a list of fields with increasing names. -/
def putField (name : String) (value : Value) : List (String × Value) → List (String × Value)
  | [] => [(name,value)]
  | (k,v) :: rest =>
    if name < k then (name,value) :: (k,v) :: rest
    else if name = k then (name,value) :: rest
    else (k,v) :: putField name value rest

mutual

/-- Settles every object of a value. -/
def Value.settle : Value → Value
  | .array items => .array (settleItems items)
  | .object fields => .object (settleFields fields [])
  | v => v

def settleItems : List Value → List Value
  | [] => []
  | v :: rest => v.settle :: settleItems rest

/-- Puts the fields, first to last, into settled ones. -/
def settleFields : List (String × Value) → List (String × Value) → List (String × Value)
  | [],done => done
  | (k,v) :: rest,done => settleFields rest (putField k v.settle done)

end

/-- The number as the nearest binary64 number. -/
def Number.toFloat : Number → Float
  | .natural n => Decimal.ofRatio false n 1
  | .negative n => Decimal.ofRatio true n 1
  | .float v => v

def Value.toFloat? : Value → Option Float
  | .number n => some n.toFloat
  | _ => none

/-- A natural number below a bound; a number spelled with a point or an exponent is none. -/
def Value.toNatural? (bound : Nat) : Value → Option Nat
  | .number (.natural n) => if n < bound then some n else none
  | _ => none

/-- A count that fits one machine word. -/
def Value.toCount? : Value → Option Nat :=
  Value.toNatural? (Nat.pow 2 64)

def Value.toBool? : Value → Option Bool
  | .bool b => some b
  | _ => none

def Value.toString? : Value → Option String
  | .string s => some s
  | _ => none

/-- A value or `null` for its absence. -/
def Value.toOption? {α : Type} (decode : Value → Option α) : Value → Option (Option α)
  | .null => some none
  | v => (decode v).map some

/-- A list of exactly two numbers. -/
def Value.toPair? : Value → Option (Float × Float)
  | .array [a,b] => do return (← a.toFloat?,← b.toFloat?)
  | _ => none

end Formulary.Json
