import Formulary.Logic.Formula
import Formulary.Proofs.Release
import Mathlib.Data.List.Chain

/-! The infix grammar of formulas. Negation binds tightest, then `&`, `|`, `->` and `<->`; the
arrow `->` groups to the right and the other connectives to the left. A group in parentheses is an
atom again, so a formula has many spellings, but a spelling has one formula. -/
namespace Formulary.Logic

/-- The kinds of phrase, named for the loosest operator that may stand outside parentheses. -/
inductive Phrase
  | iff
  | implies
  | or
  | and
  | not
  | atom
  deriving DecidableEq

/-- How tight a phrase is: wherever a phrase may stand, a tighter one may stand too. -/
def Phrase.rank : Phrase → ℕ
  | iff => 1
  | implies => 2
  | or => 3
  | and => 4
  | not => 5
  | atom => 6

namespace Connective

/-- The phrase that a connective makes of its operands. -/
def phrase : Connective → Phrase
  | and => .and
  | or => .or
  | implies => .implies
  | iff => .iff

/-- The phrases on the left of a connective; only `->` refuses its own kind there. -/
def leftPhrase : Connective → Phrase
  | and => .and
  | or => .or
  | implies => .or
  | iff => .iff

/-- The phrases on the right of a connective; only `->` takes its own kind there. -/
def rightPhrase : Connective → Phrase
  | and => .not
  | or => .and
  | implies => .implies
  | iff => .implies

end Connective

namespace Operator

/-- The phrase that an operator makes of its operands. -/
def phrase : Operator → Phrase
  | not => .not
  | binary c => c.phrase

/-- The phrases behind an operator. -/
def operandPhrase : Operator → Phrase
  | not => .not
  | binary c => c.rightPhrase

/-- A waiting operator is kept exactly by those that may stand in the operand behind it. -/
lemma bindsBefore_eq_false (o coming : Operator) :
    o.bindsBefore coming = false ↔ o.operandPhrase.rank ≤ coming.phrase.rank := by
  rcases o with _ | (_ | _ | _ | _) <;> rcases coming with _ | (_ | _ | _ | _) <;> decide

/-- A connective releases exactly the operators of phrases that may stand on its left. -/
lemma bindsBefore_binary (o : Operator) (c : Connective) :
    o.bindsBefore (.binary c) = true ↔ c.leftPhrase.rank ≤ o.phrase.rank := by
  rcases o with _ | (_ | _ | _ | _) <;> rcases c with _ | _ | _ | _ <;> decide

end Operator

lemma Connective.rank_le_leftPhrase (c : Connective) : c.phrase.rank ≤ c.leftPhrase.rank := by
  cases c <;> decide

lemma Connective.rank_le_rightPhrase (c : Connective) : c.phrase.rank ≤ c.rightPhrase.rank := by
  cases c <;> decide

/-- The tokens spell the formula as a phrase of the kind. -/
inductive Spells : Phrase → Formula → List Token → Prop
  | letter (l : Letter) : Spells .atom (.letter l) [.letter l]
  | xor (l r : Letter) : Spells .atom (.xor l r) [.xor l r]
  | group {f ts} (inner : Spells .iff f ts) : Spells .atom f (.opening :: (ts ++ [.closing]))
  | not {f ts} (inner : Spells .not f ts) : Spells .not (.not f) (.operator .not :: ts)
  | binary (c : Connective) {f g ts us} (left : Spells c.leftPhrase f ts)
      (right : Spells c.rightPhrase g us) :
      Spells c.phrase (.binary c f g) (ts ++ .operator (.binary c) :: us)
  | loosen {m k f ts} (h : m.rank ≤ k.rank) (inner : Spells k f ts) : Spells m f ts

/-- A sentence is the spelling of a whole formula. -/
def IsSentence (ts : List Token) : Prop := ∃ f, Spells .iff f ts

/-- The letters of a formula, from left to right. -/
def Formula.letters : Formula → List Letter
  | letter l => [l]
  | xor l r => [l,r]
  | not f => f.letters
  | binary _ f g => f.letters ++ g.letters

lemma Spells.ne_nil {m : Phrase} {f : Formula} {ts : List Token} (h : Spells m f ts) : ts ≠ [] := by
  induction h with
  | loosen _ _ ih => exact ih
  | _ => simp

/-- A program reads the letters of its formula and no others. -/
lemma uses_postfixOrder (f : Formula) (l : Letter) :
    Postfix.uses f.postfixOrder l = true ↔ l ∈ f.letters := by
  induction f with
  | letter k => simp [Formula.postfixOrder,Postfix.uses,Instruction.letters,Formula.letters]
  | xor j k => simp [Formula.postfixOrder,Postfix.uses,Instruction.letters,Formula.letters]
  | not f ih =>
    simp only [Formula.postfixOrder,Formula.letters,← ih]
    simp [Postfix.uses,Instruction.letters]
  | binary c f g ihf ihg =>
    simp only [Formula.postfixOrder,Formula.letters,List.mem_append,← ihf,← ihg]
    simp [Postfix.uses,Instruction.letters]

end Formulary.Logic
