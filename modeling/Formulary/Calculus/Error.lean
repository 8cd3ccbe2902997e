import Formulary.Calculus.Token

/-! What can go wrong with a function: in its text, or in the numbers it is analysed with. -/
namespace Formulary.Calculus

/-- Faults of a text. Positions count characters from one. -/
inductive SyntaxError
  | unsafeCharacter (c : Char) (position : Nat)
  | invalidSymbol (position : Nat)
  | unknownIdentifier (name : String) (position : Nat)
  | unbalanced
  | empty
  | missingArgument (r : Routine)
  | unexpected (t : Token) (position : Nat)
  | missingOperand (o : Operator)
  | malformed
  deriving DecidableEq

def SyntaxError.message : SyntaxError → String
  | unsafeCharacter c position =>
    "unsafe character '" ++ String.singleton c ++ s!"' at position {position}"
  | invalidSymbol position => s!"invalid symbol at position {position}"
  | unknownIdentifier name position =>
    "unknown identifier '" ++ name ++ s!"' at position {position}"
  | unbalanced => "unbalanced parentheses"
  | empty => "empty expression"
  | missingArgument r => "function " ++ r.name ++ " must be followed by a parenthesized argument"
  | unexpected t position => "unexpected '" ++ t.text ++ s!"' at position {position}"
  | missingOperand o => "missing operand for " ++ o.text
  | malformed => "malformed expression"

inductive Error
  | text (e : SyntaxError)
  | notFinite (name : String)
  | emptyDomain (lo hi : Float)
  | pointCount (requested least greatest : Nat)
  deriving DecidableEq

def Error.message : Error → String
  | text e => e.message
  | notFinite name => name ++ " must be a finite number"
  | emptyDomain lo hi =>
    "invalid domain: lower bound " ++ Decimal.Layout.plain.text lo ++
      " must be less than upper bound " ++ Decimal.Layout.plain.text hi
  | pointCount requested least greatest =>
    s!"point count {requested} is outside the allowed range {least}..={greatest}"

end Formulary.Calculus
