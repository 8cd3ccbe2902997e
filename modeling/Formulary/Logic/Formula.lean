import Formulary.Logic.Evaluation

/-! Formulas as trees, with their truth value and their postfix program. The meaning of a tree is
given here on its own, so that programs can be held against it. -/
namespace Formulary.Logic

inductive Formula
  | letter (l : Letter)
  | xor (l r : Letter)
  | not (f : Formula)
  | binary (c : Connective) (f g : Formula)
  deriving DecidableEq

namespace Formula

/-- The truth value of a formula when every letter has a value. -/
def value (v : Letter → Bool) : Formula → Bool
  | letter l => v l
  | xor l r => v l != v r
  | not f => !f.value v
  | binary .and f g => f.value v && g.value v
  | binary .or f g => f.value v || g.value v
  | binary .implies f g => !f.value v || g.value v
  | binary .iff f g => f.value v == g.value v

/-- The operands in order, each operator behind its own. -/
def postfixOrder : Formula → Postfix
  | letter l => [.letter l]
  | xor l r => [.xor l r]
  | not f => f.postfixOrder ++ [.operator .not]
  | binary c f g => f.postfixOrder ++ g.postfixOrder ++ [.operator (.binary c)]

end Formula
end Formulary.Logic
