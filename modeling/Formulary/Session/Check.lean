import Formulary.Logic.Letter
import Formulary.Sets.FiniteSet
import Formulary.Session.Config

/-! Checks on what a user typed. They come before any computation, and each names the field that is
at fault. -/
namespace Formulary.Session

/-- The text without the blanks around it, which must leave something. -/
def requireText (field raw : String) : Except Rejection String :=
  if (trimmed raw).isEmpty then .error (.blank field) else .ok (trimmed raw)

def readNumber (field raw : String) : Except Rejection Float :=
  match Decimal.read? (trimmed raw) with
  | some v => if v.isFinite then .ok v else .error (.notNumber field (trimmed raw))
  | none => .error (.notNumber field (trimmed raw))

def requirePoints (least greatest given : Nat) : Except Rejection Nat :=
  if given < least ∨ greatest < given then .error (.pointCount least greatest given) else .ok given

def readPoints (least greatest : Nat) (raw : String) : Except Rejection Nat :=
  match Decimal.readNatural? (trimmed raw) with
  | some n => requirePoints least greatest n
  | none => .error (.notWhole (trimmed raw))

/-- The alphabet of a given size. -/
def requireAlphabet (size : Nat) : Except Rejection Logic.Alphabet :=
  match Logic.Alphabet.ofSize? size with
  | some alphabet => .ok alphabet
  | none => .error (.letterCount size)

def requireFinite (field : String) (v : Float) : Except Rejection Unit :=
  if v.isFinite then .ok () else .error (.notFinite field)

/-- Checks the numbers of an analysis, in the order of the form they come from. -/
def requireParameters (least greatest : Nat) (p : Calculus.Parameters) : Except Rejection Unit := do
  requireFinite "xMin" p.xMin
  requireFinite "xMax" p.xMax
  requireFinite "x0" p.x0
  requireFinite "a" p.a
  requireFinite "b" p.b
  if p.xMax ≤ p.xMin then throw (.emptyRange p.xMin p.xMax)
  let _ ← requirePoints least greatest p.points

/-- At least one of two texts must hold an element. -/
def requireOperands (a b : String) : Except Rejection Unit :=
  if (Sets.FiniteSet.ofText a).isEmpty && (Sets.FiniteSet.ofText b).isEmpty
  then .error .noOperands else .ok ()

def requireUniverse (whole : String) : Except Rejection Unit :=
  if (Sets.FiniteSet.ofText whole).isEmpty then .error .emptyUniverse else .ok ()

/-- The form of an analysis as it was filled in. -/
structure AnalysisForm where
  expression : String
  xMin : String
  xMax : String
  points : String
  x0 : String
  a : String
  b : String
  showTangent : Bool
  showArea : Bool

/-- The parameters that a form stands for. -/
def AnalysisForm.parameters (f : AnalysisForm) (config : Config) :
    Except Rejection Calculus.Parameters := do
  let xMin ← readNumber "xMin" f.xMin
  let xMax ← readNumber "xMax" f.xMax
  let points ← readPoints config.leastPoints config.mostPoints f.points
  let x0 ← readNumber "x0" f.x0
  let a ← readNumber "a" f.a
  let b ← readNumber "b" f.b
  let p : Calculus.Parameters := ⟨xMin,xMax,points,x0,a,b,f.showTangent,f.showArea⟩
  requireParameters config.leastPoints config.mostPoints p
  return p

end Formulary.Session
