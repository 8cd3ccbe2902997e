import Formulary.Calculus.Program

/-! Expressions over one variable as trees, with the program that computes them. -/
namespace Formulary.Calculus

inductive Expression
  | number (v : Float)
  | x
  | pi
  | negate (e : Expression)
  | binary (o : Operator) (l r : Expression)
  | call (r : Routine) (e : Expression)
  deriving DecidableEq

/-- The operands in order, each operation behind its own. -/
def Expression.postfixOrder : Expression → Program
  | number v => [.number v]
  | x => [.x]
  | pi => [.pi]
  | negate e => e.postfixOrder ++ [.negate]
  | binary o l r => l.postfixOrder ++ r.postfixOrder ++ [.binary o]
  | call r e => e.postfixOrder ++ [.call r]

end Formulary.Calculus
