import Formulary.Logic.Error
import Formulary.Logic.Postfix
import Formulary.Logic.Assignment

/-! Running a postfix program on a stack of truth values. The right operand of a connective lies on
top of the left one, and a program has to leave exactly one value. -/
namespace Formulary.Logic

def Connective.apply : Connective → Bool → Bool → Bool
  | and,l,r => l && r
  | or,l,r => l || r
  | implies,l,r => !l || r
  | iff,l,r => l == r

def Assignment.value (s : Assignment) (l : Letter) : Except EvalError Bool :=
  match s.value? l with
  | some b => .ok b
  | none => .error (.unassigned l)

/-- Carries out one instruction on the stack. -/
def Instruction.step (s : Assignment) : Instruction → List Bool → Except EvalError (List Bool)
  | letter l,stack => (s.value l).map (· :: stack)
  | xor l r,stack => do
    let x ← s.value l
    let y ← s.value r
    return (x != y) :: stack
  | operator .not,stack =>
    match stack with
    | x :: below => .ok ((!x) :: below)
    | [] => .error .missingOperand
  | operator (.binary c),stack =>
    match stack with
    | y :: x :: below => .ok (c.apply x y :: below)
    | _ => .error (.missingOperands c)

/-- The stack after a program that starts on another stack. -/
def Postfix.run (s : Assignment) : Postfix → List Bool → Except EvalError (List Bool)
  | [],stack => .ok stack
  | i :: rest,stack => do
    let stack ← i.step s stack
    Postfix.run s rest stack

/-- The value of a program under an assignment. -/
def Postfix.eval (p : Postfix) (s : Assignment) : Except EvalError Bool :=
  match Postfix.run s p [] with
  | .error e => .error e
  | .ok [x] => .ok x
  | .ok _ => .error .invalidExpression

end Formulary.Logic
