import Formulary.Decimal.Layout
import Formulary.Decimal.Reader

/-! Elements of finite sets: numbers and symbols. A token is a number only if the number is written
exactly like the token. Elements are the same when their canonical texts are. -/
namespace Formulary.Sets

/-- The shortest positional text of a number; zero has no sign. -/
def numberText (v : Float) : String :=
  if v == 0.0 then "0" else Decimal.Layout.plain.text v

inductive Element
  | numeric (v : Float)
  | symbolic (s : String)
  deriving DecidableEq, Inhabited

namespace Element

/-- The element that a trimmed token stands for. -/
def ofToken (token : String) : Element :=
  match Decimal.read? token with
  | some v => if v.isFinite && numberText v == token then numeric v else symbolic token
  | none => symbolic token

/-- The text by which elements are told apart. -/
def canonical : Element → String
  | numeric v => numberText v
  | symbolic s => s

def isNumeric : Element → Bool
  | numeric _ => true
  | symbolic _ => false

def number? : Element → Option Float
  | numeric v => some v
  | symbolic _ => none

/-- Reading a token keeps its text. -/
@[simp] theorem canonical_ofToken (token : String) : (ofToken token).canonical = token := by
  unfold ofToken
  split
  · split
    · rename_i h
      simpa [canonical] using (Bool.and_eq_true_iff.mp h).2
    · rfl
  · rfl

end Element
end Formulary.Sets
