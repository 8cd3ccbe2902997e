import Formulary.Logic.Table

/-! Comparing two formulas row by row. The first row in which they differ is the counterexample, and
no later row is looked at. -/
namespace Formulary.Logic

/-- A row in which two formulas differ. -/
structure Counterexample where
  assignment : Assignment
  left : Bool
  right : Bool
  deriving DecidableEq

def Counterexample.text (c : Counterexample) : String :=
  c.assignment.text ++ " (R1≠R2)"

structure Equivalence where
  left : String
  right : String
  alphabet : Alphabet
  counterexample : Option Counterexample

def Equivalence.holds (e : Equivalence) : Bool :=
  e.counterexample.isNone

/-- The first of the assignments under which two programs differ. -/
def firstDifference (p q : Postfix) : List Assignment → Except Error (Option Counterexample)
  | [] => .ok none
  | s :: rest => do
    let x ← p.evaluate s
    let y ← q.evaluate s
    if x != y then return some ⟨s,x,y⟩ else firstDifference p q rest

/-- Compares two formulas over an alphabet. -/
def Equivalence.ofTexts (alphabet : Alphabet) (left right : String) : Except Error Equivalence := do
  let p ← compileOver alphabet left
  let q ← compileOver alphabet right
  let counterexample ← firstDifference p q alphabet.assignments
  return ⟨left,right,alphabet,counterexample⟩

end Formulary.Logic
