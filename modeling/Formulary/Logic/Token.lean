import Formulary.Logic.Letter

/-! The tokens of the formula language: letters, the five connectives, parentheses, and the call
`xor(X,Y)` on two letters. Each token has exactly one text. -/
namespace Formulary.Logic

/-- The connectives with two operands. -/
inductive Connective
  | and
  | or
  | implies
  | iff
  deriving DecidableEq

/-- A connective, negation included. -/
inductive Operator
  | not
  | binary (c : Connective)
  deriving DecidableEq

namespace Operator

/-- How tightly an operator binds. -/
def precedence : Operator → Nat
  | not => 5
  | binary .and => 4
  | binary .or => 3
  | binary .implies => 2
  | binary .iff => 1

def groupsRight : Operator → Bool
  | not => true
  | binary .implies => true
  | _ => false

/-- Whether a waiting operator takes its operands before one that comes later. -/
def bindsBefore (waiting coming : Operator) : Bool :=
  if coming.groupsRight then coming.precedence < waiting.precedence
  else coming.precedence ≤ waiting.precedence

def chars : Operator → List Char
  | not => ['~']
  | binary .and => ['&']
  | binary .or => ['|']
  | binary .implies => ['-','>']
  | binary .iff => ['<','-','>']

def text (o : Operator) : String :=
  String.ofList o.chars

end Operator

def Connective.text (c : Connective) : String :=
  (Operator.binary c).text

inductive Token
  | letter (l : Letter)
  | operator (o : Operator)
  | opening
  | closing
  | xor (l r : Letter)
  deriving DecidableEq

namespace Token

def chars : Token → List Char
  | letter l => [l.char]
  | operator o => o.chars
  | opening => ['(']
  | closing => [')']
  | xor l r => ['x','o','r','(',l.char,',',r.char,')']

def text (t : Token) : String :=
  String.ofList t.chars

theorem chars_ne_nil (t : Token) : t.chars ≠ [] := by
  rcases t with _ | (_ | _ | _ | _ | _) | _ | _ | _ <;> simp [chars,Operator.chars]

end Token
end Formulary.Logic
