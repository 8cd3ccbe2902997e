import Formulary.Logic.Token

/-! What can go wrong with a formula: in its text, in its evaluation, or in the letters it uses. -/
namespace Formulary.Logic

/-- Faults of a text. Positions count the characters that are not blank, from one. -/
inductive SyntaxError
  | invalidSymbol (position : Nat)
  | malformedXor (position : Nat)
  | unbalanced
  | empty
  deriving DecidableEq

def SyntaxError.message : SyntaxError → String
  | invalidSymbol position => s!"invalid symbol at position {position}"
  | malformedXor position =>
    s!"malformed xor call at position {position}: expected xor(X,Y) with X and Y in A/B/C"
  | unbalanced => "unbalanced parentheses"
  | empty => "empty expression"

/-- Faults of a postfix program that is run. -/
inductive EvalError
  | missingOperand
  | missingOperands (c : Connective)
  | invalidExpression
  | unassigned (l : Letter)
  deriving DecidableEq

def EvalError.message : EvalError → String
  | missingOperand => "missing operand for ~"
  | missingOperands c => "missing operands for " ++ c.text
  | invalidExpression => "invalid expression"
  | unassigned l => "variable " ++ l.text ++ " has no value in this assignment"

inductive Error
  | text (e : SyntaxError)
  | evaluation (e : EvalError)
  | undeclared (l : Letter) (alphabet : Alphabet)
  | unsupportedCount (n : Nat)
  deriving DecidableEq

def Error.message : Error → String
  | text e => e.message
  | evaluation e => e.message
  | undeclared l alphabet =>
    "variable " ++ l.text ++ s!" is not declared when only {alphabet.size} variables are in use"
  | unsupportedCount n => s!"unsupported variable count {n}: choose 2 or 3"

/-- The alphabet with so many letters. -/
def Alphabet.ofSize (n : Nat) : Except Error Alphabet :=
  match Alphabet.ofSize? n with
  | some alphabet => .ok alphabet
  | none => .error (.unsupportedCount n)

end Formulary.Logic
