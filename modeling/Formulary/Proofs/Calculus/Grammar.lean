import Formulary.Calculus.Compile
import Formulary.Calculus.Expression
import Formulary.Proofs.Release

/-! The grammar of function texts. Sums and products group to the left and powers to the right; a
sign before an operand binds tighter than a product and looser than a power. Signs may be piled up,
and a plus sign leaves no trace. Where the tokens stand in the text plays no part. -/
namespace Formulary.Calculus

/-- The kinds of phrase, named for the loosest operator that may stand outside parentheses. -/
inductive Phrase
  | sum
  | product
  | unary
  | power
  | atom
  deriving DecidableEq

/-- How tight a phrase is: wherever a phrase may stand, a tighter one may stand too. -/
def Phrase.rank : Phrase → ℕ
  | sum => 1
  | product => 2
  | unary => 3
  | power => 4
  | atom => 5

namespace Operator

/-- The phrase that an operator makes of its operands. -/
def phrase : Operator → Phrase
  | add => .sum
  | subtract => .sum
  | multiply => .product
  | divide => .product
  | power => .power

/-- The phrases on the left of an operator. -/
def leftPhrase : Operator → Phrase
  | add => .sum
  | subtract => .sum
  | multiply => .product
  | divide => .product
  | power => .atom

/-- The phrases on the right of an operator; an exponent may begin with a sign. -/
def rightPhrase : Operator → Phrase
  | add => .product
  | subtract => .product
  | multiply => .unary
  | divide => .unary
  | power => .unary

lemma rank_le_leftPhrase (o : Operator) : o.phrase.rank ≤ o.leftPhrase.rank := by
  cases o <;> decide

lemma rank_le_unary {o : Operator} (h : o ≠ .power) : o.phrase.rank < Phrase.unary.rank := by
  revert h
  cases o <;> decide

lemma leftPhrase_eq_phrase {o : Operator} (h : o ≠ .power) : o.leftPhrase = o.phrase := by
  revert h
  cases o <;> decide

end Operator

/-- The tokens spell the expression as a phrase of the kind. -/
inductive Spells : Phrase → Expression → List Placed → Prop
  | number (v : Float) (i : ℕ) : Spells .atom (.number v) [⟨.number v,i⟩]
  | x (i : ℕ) : Spells .atom .x [⟨.x,i⟩]
  | pi (i : ℕ) : Spells .atom .pi [⟨.pi,i⟩]
  | call (r : Routine) (i j k : ℕ) {e ts} (inner : Spells .sum e ts) :
      Spells .atom (.call r e) (⟨.routine r,i⟩ :: ⟨.opening,j⟩ :: (ts ++ [⟨.closing,k⟩]))
  | group (i j : ℕ) {e ts} (inner : Spells .sum e ts) :
      Spells .atom e (⟨.opening,i⟩ :: (ts ++ [⟨.closing,j⟩]))
  | minus (i : ℕ) {e ts} (inner : Spells .unary e ts) :
      Spells .unary (.negate e) (⟨.operator .subtract,i⟩ :: ts)
  | plus (i : ℕ) {e ts} (inner : Spells .unary e ts) :
      Spells .unary e (⟨.operator .add,i⟩ :: ts)
  | binary (o : Operator) (i : ℕ) {l r ts us} (left : Spells o.leftPhrase l ts)
      (right : Spells o.rightPhrase r us) :
      Spells o.phrase (.binary o l r) (ts ++ ⟨.operator o,i⟩ :: us)
  | loosen {m k e ts} (h : m.rank ≤ k.rank) (inner : Spells k e ts) : Spells m e ts

namespace Pending

/-- The phrase that a waiting operation makes; a parenthesis or a routine makes none by itself. -/
def phrase? : Pending → Option Phrase
  | negate => some .unary
  | binary o => some o.phrase
  | opening => none
  | routine _ => none

/-- The phrases behind a waiting entry. -/
def operandPhrase : Pending → Phrase
  | negate => .unary
  | binary o => o.rightPhrase
  | opening => .sum
  | routine _ => .sum

/-- An operator releases exactly the operations whose phrases may stand on its left. -/
lemma goesBefore_iff (o : Operator) (p : Pending) :
    p.goesBefore o = true ↔ ∃ k, p.phrase? = some k ∧ o.leftPhrase.rank ≤ k.rank := by
  rcases p with _ | _ | (_ | _ | _ | _ | _) | _ <;> cases o <;>
    simp [goesBefore,phrase?,Operator.precedence,Operator.groupsRight,Operator.leftPhrase,
      Operator.phrase,Phrase.rank]

/-- A waiting entry is kept exactly by the operators that may stand in the operand behind it. -/
lemma goesBefore_eq_false (o : Operator) (p : Pending) :
    p.goesBefore o = false ↔ p.operandPhrase.rank ≤ o.phrase.rank := by
  rcases p with _ | _ | (_ | _ | _ | _ | _) | _ <;> cases o <;>
    simp [goesBefore,operandPhrase,Operator.precedence,Operator.groupsRight,Operator.rightPhrase,
      Operator.phrase,Phrase.rank]

lemma goesBefore_power (p : Pending) : p.goesBefore .power = false := by
  rcases p with _ | _ | (_ | _ | _ | _ | _) | _ <;> rfl

end Pending

end Formulary.Calculus
