import Formulary.Decimal.Layout

/-! The tokens of the function language: numbers, the variable, the constant pi, seven named
routines, five operators, parentheses and the comma. An operator also has a dotted spelling, which
stands for the same token. -/
namespace Formulary.Calculus

inductive Operator
  | add
  | subtract
  | multiply
  | divide
  | power
  deriving DecidableEq

namespace Operator

def char : Operator → Char
  | add => '+'
  | subtract => '-'
  | multiply => '*'
  | divide => '/'
  | power => '^'

def text (o : Operator) : String :=
  String.singleton o.char

/-- How tightly an operator between two operands binds; negation lies between products and powers.
-/
def precedence : Operator → Nat
  | add => 1
  | subtract => 1
  | multiply => 2
  | divide => 2
  | power => 4

def groupsRight : Operator → Bool
  | power => true
  | _ => false

/-- The operators that may be spelled behind a point. -/
def ofDotted? : Char → Option Operator
  | '*' => some multiply
  | '/' => some divide
  | '^' => some power
  | _ => none

end Operator

/-- The routines that can be called. -/
inductive Routine
  | sin
  | cos
  | tan
  | exp
  | log
  | sqrt
  | abs
  deriving DecidableEq

namespace Routine

def all : List Routine := [sin,cos,tan,exp,log,sqrt,abs]

def name : Routine → String
  | sin => "sin"
  | cos => "cos"
  | tan => "tan"
  | exp => "exp"
  | log => "log"
  | sqrt => "sqrt"
  | abs => "abs"

/-- The routine with a name, which is written in small letters. -/
def ofName? (name : String) : Option Routine :=
  all.find? (·.name == name)

@[simp] theorem ofName?_name (r : Routine) : ofName? r.name = some r := by
  cases r <;> decide +kernel

end Routine

inductive Token
  | number (v : Float)
  | x
  | pi
  | routine (r : Routine)
  | operator (o : Operator)
  | opening
  | closing
  | comma
  deriving DecidableEq

def Token.text : Token → String
  | number v => Decimal.Layout.plain.text v
  | x => "x"
  | pi => "pi"
  | routine r => r.name
  | operator o => o.text
  | opening => "("
  | closing => ")"
  | comma => ","

/-- A token and the place of its first character, counted from one. -/
structure Placed where
  token : Token
  position : Nat
  deriving DecidableEq

end Formulary.Calculus
